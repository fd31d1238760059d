import Craq.Storage.Progress
import Craq.Storage.Agreement

/-! # What a replica believes its predecessor to know

A replica tells its predecessor how far it has committed, and keeps the highest sequence that the
predecessor is known to have heard of.  Beside the cluster, the highest commit token that each node
has ever received is put on record, and the commit advances that a node has accepted: such a call
returns without an error only after the node it was sent to has accepted it.
-/

namespace Craq.Storage

open Lib (Reaches run guarded)

/-! ## Tokens -/

/-- Where a replica with the assignment reaches its predecessor. -/
def ReplicaAssignment.upstream (assignment : ReplicaAssignment) : String :=
  peerTransportTarget assignment.peers.predecessorTarget assignment.peers.predecessorNodeID

structure TokenCluster where
  cluster : Cluster
  received : String → Nat := fun _ => 0
  accepted : List (String × CommitAdvanceRequest) := []

/-- The commit advance that the owner accepts with its next task. -/
def NodeSlot.acceptsAdvance (n : NodeSlot) : Option CommitAdvanceRequest :=
  match n.tasks with
  | .commitAdvance req :: _ =>
    match n.replicationRecord with
    | .ok record =>
      match validateCommitAdvanceSource record req with
      | .ok () => some req
      | .error _ => none
    | .error _ => none
  | _ => none

namespace TokenCluster

variable (resolve : String → String) (state : TokenCluster)

def accepts : Action → List (String × CommitAdvanceRequest)
  | .node id .task => ((state.cluster.nodes id).acceptsAdvance.map fun req => (id, req)).toList
  | _ => []

/-- A commit advance that returns without an error has been accepted where it was sent to. -/
def answered : Action → Bool
  | .node id (.callReturned index none) =>
    match (state.cluster.nodes id).calls[index]? with
    | some (.commitAdvance req nodeID target) =>
      decide ((resolve (peerTransportTarget target nodeID), req) ∈ state.accepted)
    | _ => true
  | _ => true

def step (action : Action) : Option TokenCluster :=
  if state.answered resolve action then
    (state.cluster.step resolve action).map fun next =>
      { cluster := next
        received := fun id =>
          max (state.received id) (next.nodes id).record.highestCommitTokenReceived
        accepted := state.accepted ++ state.accepts action }
  else none

/-- The highest token ever received by the node that a target leads to. -/
def known (target : String) : Nat :=
  state.received (resolve target)

/-- No active replica believes its predecessor to know of commits it was never told about. -/
def Honest : Prop :=
  ∀ id, let record := (state.cluster.nodes id).record
    record.state = .active → record.assignment.peers.predecessorNodeID ≠ "" →
      record.highestUpstreamConfirmedSequence ≤ state.known resolve record.assignment.upstream

end TokenCluster

/-- A new predecessor has already been told what the replica has committed, and a replica is rebuilt
from its predecessor.  No node crashes. -/
def NodeSlot.informed (known : String → Nat) (n : NodeSlot) : NodeInput → Bool
  | .event (.command (.updateChainPeers assignment)) =>
    !NodeSlot.predecessorPeerChanged n.record.assignment assignment ||
      decide (assignment.peers.predecessorNodeID = "") ||
      decide (n.record.highestCommittedSequence ≤ known assignment.upstream)
  | .event (.command (.recoverReplica assignment sourceNodeID)) =>
    peerTransportTarget assignment.peers.predecessorTarget sourceNodeID = assignment.upstream
  | .restart => false
  | _ => true

def TokenCluster.informed (resolve : String → String) (state : TokenCluster) : Action → Bool
  | .node id event => (state.cluster.nodes id).informed (state.known resolve) (.event event)
  | .restart _ => false
  | _ => true

/-! ## The invariant of a node -/

structure ReplicaRecord.Told (known : String → Nat) (record : ReplicaRecord) : Prop where
  live : record.state ≠ .recovered
  token : record.highestCommittedSequence ≤ record.highestCommitTokenReceived
  confirmed : record.assignment.peers.predecessorNodeID ≠ "" →
    record.highestUpstreamConfirmedSequence ≤ known record.assignment.upstream

/-- Where a snapshot for the use comes from. -/
def SnapshotUse.source : SnapshotUse → String
  | .join assignment => assignment.upstream
  | .recover assignment => assignment.upstream
  | .activation plan => peerTransportTarget plan.sourceTarget plan.sourceNodeID

structure Core.Told (known : String → Nat) (c : Core) : Prop where
  record : c.record.Told known
  copies : ∀ copy ∈ c.copies, copy.Told known
  ready : ∀ copy ∈ c.ready, copy.Told known
  awaits : ∀ awaited ∈ c.awaits, awaited.2 = awaited.1.source
  answers : ∀ answer ∈ c.answers, answer.2.2 ≤ known answer.1.source
  resumes : c.resumes = []

section Record

variable {known more : String → Nat} {record next : ReplicaRecord}

theorem ReplicaRecord.Told.mono (h : record.Told known) (hle : ∀ target, known target ≤ more target) :
    record.Told more :=
  ⟨h.live, h.token, fun hnamed => (h.confirmed hnamed).trans (hle _)⟩

theorem ReplicaRecord.Told.congr (h : record.Told known) (state : next.state ≠ .recovered)
    (assignment : next.assignment = record.assignment)
    (committed : next.highestCommittedSequence = record.highestCommittedSequence)
    (token : record.highestCommitTokenReceived ≤ next.highestCommitTokenReceived)
    (confirmed : next.highestUpstreamConfirmedSequence = record.highestUpstreamConfirmedSequence) :
    next.Told known where
  live := state
  token := committed.le.trans (h.token.trans token)
  confirmed := by
    rw [assignment, confirmed]
    exact h.confirmed

theorem Core.Told.mono {c : Core} (h : c.Told known) (hle : ∀ target, known target ≤ more target) :
    c.Told more where
  record := h.record.mono hle
  copies := fun copy hmem => (h.copies copy hmem).mono hle
  ready := fun copy hmem => (h.ready copy hmem).mono hle
  awaits := h.awaits
  answers := fun answer hmem => (h.answers answer hmem).trans (hle _)
  resumes := h.resumes

theorem ReplicaRecord.Told.absent : ReplicaRecord.Told known {} :=
  ⟨nofun, le_rfl, fun _ => Nat.zero_le _⟩

variable {assignment : ReplicaAssignment} {highest : Nat}

theorem ReplicaRecord.Told.joined (h : highest ≤ known assignment.upstream) :
    (NodeSlot.joinedRecord assignment highest).Told known :=
  ⟨nofun, le_rfl, fun _ => h⟩

theorem ReplicaRecord.Told.rebuilt (h : highest ≤ known assignment.upstream) :
    (NodeSlot.rebuiltRecord assignment highest).Told known :=
  ⟨nofun, le_rfl, fun _ => h⟩

variable (h : record.Told known)

include h

theorem ReplicaRecord.Told.committed {limit count : Nat}
    {cache : Std.ExtTreeMap String (Option ObjectMetadata)} {progress : NodeSlot.CommitProgress}
    (token : record.highestCommittedSequence + count ≤ record.highestCommitTokenReceived)
    (hcommitted : NodeSlot.commitSequences limit count { record, committedMetadata := cache } =
      (progress, true)) (sequence : Nat) :
    (NodeSlot.confirmedAtHead progress.record sequence).Told known := by
  have ⟨through, hlast, hconfirmed⟩ := commitSequences_through hcommitted
  have told : progress.record.Told known := by
    refine ⟨through.state ▸ h.live, ?_, ?_⟩
    · rw [hlast, through.token]
      exact token
    · rw [through.assignment, hconfirmed]
      exact h.confirmed
  rw [NodeSlot.confirmedAtHead]
  split
  · rename_i hfirst
    exact ⟨told.live, told.token, fun hnamed => absurd hfirst hnamed⟩
  · exact told

theorem ReplicaRecord.Told.synced (hle : highest ≤ known record.assignment.upstream) :
    (NodeSlot.reduceSyncedPredecessorState record highest).Told known := by
  have ⟨assignment, state, _, _, _, token, committed, confirmed⟩ :=
    reduceSyncedPredecessorState_counters record highest
  refine ⟨state ▸ h.live, ?_, ?_⟩
  · rw [committed, token]
  · rw [assignment, confirmed]
    exact fun _ => hle

theorem ReplicaRecord.Told.forwardWrite {req : ForwardWriteRequest} {limits : BufferLimits}
    {action : ReducerAction} (hok : reduceForwardWrite record req limits = .ok ⟨next, action⟩) :
    next.Told known := by
  rcases reduceForwardWrite_cases hok with ⟨-, rfl⟩ | ⟨-, -, hbuffer⟩ | ⟨-, -, rfl⟩
  · exact h
  · obtain ⟨buffered, rfl⟩ := reduceBufferFutureForward_eq hbuffer
    exact h.congr h.live rfl rfl le_rfl rfl
  · have ⟨assignment, state, _, token, committed, confirmed⟩ := reduceStageForward_counters record req
    exact h.congr (state ▸ h.live) assignment committed token.ge confirmed

theorem ReplicaRecord.Told.reassigned
    (informed : NodeSlot.predecessorPeerChanged record.assignment assignment = true →
      assignment.peers.predecessorNodeID ≠ "" →
        record.highestCommittedSequence ≤ known assignment.upstream) :
    (NodeSlot.reassigned record assignment).Told known := by
  have placed : (NodeSlot.withAssignment record assignment).Told known := by
    refine ⟨h.live, h.token, ?_⟩
    intro hnamed
    change (if _ then _ else _) ≤ _
    split
    · rename_i hchanged
      exact informed hchanged hnamed
    · rename_i hsame
      simp only [NodeSlot.predecessorPeerChanged, Bool.or_eq_true, decide_eq_true_eq, not_or,
        not_not] at hsame
      have same : record.assignment.upstream = assignment.upstream := by
        rw [ReplicaAssignment.upstream, hsame.1, hsame.2]
        rfl
      have hkept : record.assignment.peers.predecessorNodeID ≠ "" := by
        rw [hsame.1]
        exact hnamed
      exact same ▸ h.confirmed hkept
  have followed : (NodeSlot.followPredecessor record.assignment
      (NodeSlot.withAssignment record assignment)).Told known := by
    rw [NodeSlot.followPredecessor]
    split
    · exact placed.congr placed.live rfl rfl le_rfl rfl
    · exact placed
  rw [NodeSlot.reassigned, NodeSlot.followSuccessor]
  dsimp only
  split
  · exact followed
  split
  · exact followed.congr followed.live rfl rfl le_rfl rfl
  · exact followed.congr followed.live rfl rfl (le_max_left _ _) rfl

end Record

/-! ## Moves -/

variable {n : NodeSlot}

theorem NodeSlot.source_of_asks {known : String → Nat} {input : NodeInput} {record : ReplicaRecord}
    {use : SnapshotUse} {source : String} (h : n.informed known input = true)
    (asks : n.Asks record input use source) : source = use.source := by
  rw [NodeSlot.Asks.eq_def] at asks
  split at asks
  · obtain ⟨-, rfl, -, rfl⟩ := asks
    rfl
  · obtain ⟨rfl, rfl⟩ := asks
    rfl
  · obtain ⟨-, rfl, rfl⟩ := asks
    exact of_decide_eq_true h
  · cases asks

theorem Core.Told.effect {known : String → Nat} {input : NodeInput} {c d : Core}
    (informed : n.informed known input = true)
    (fetched : ∀ use reply, n.Fetched input use reply → reply.2 ≤ known use.source)
    (returned : ∀ index req nodeID target, input = .event (.callReturned index none) →
      n.calls[index]? = some (.commitAdvance req nodeID target) →
        req.committedThrough ≤ known (peerTransportTarget target nodeID))
    (start : n.core.Told known) (h : c.Told known) (effect : Effect n input c d) :
    d.Told known := by
  cases effect with
  | carry copied submitted worked awaited answered resumed called =>
    refine ⟨h.record, ?_, ?_, fun use hmem => h.awaits use (awaited hmem),
      fun answer hmem => h.answers answer (answered hmem), List.sublist_nil.mp (h.resumes ▸ resumed)⟩
    · intro copy hmem
      rcases copied copy hmem with hheld | rfl
      · exact h.copies copy hheld
      · exact h.record
    · intro copy hmem
      rcases submitted copy hmem with hheld | ⟨rfl, -⟩ | ⟨hheld, -⟩
      · exact h.ready copy hheld
      · exact h.record
      · exact h.copies copy hheld
  | forget | exchange | acknowledge | lookup | ask | drop | startRebuild | flushFailed | note | accept =>
    exact { h with }
  | flush => exact { start with }
  | await asks awaited =>
    refine { h with awaits := ?_ }
    intro use hmem
    rcases List.mem_cons.mp (awaited hmem) with rfl | hheld
    · exact NodeSlot.source_of_asks informed asks
    · exact h.awaits use hheld
  | answer served answered =>
    refine { h with answers := ?_ }
    intro answer hmem
    rcases List.mem_cons.mp (answered hmem) with rfl | hheld
    · exact fetched _ _ served
    · exact h.answers answer hheld
  | awaitTail taken recovered idle => exact absurd recovered h.record.live
  | confirmHead present first =>
    exact { h with record := ⟨h.record.live, h.record.token, fun hnamed => absurd first hnamed⟩ }
  | commit same present positive token durable committed =>
    exact { h with record := h.record.committed token committed _ }
  | interrupt same present durable stopped =>
    exact { h with record := h.record.congr h.record.live rfl rfl le_rfl rfl }
  | raise submitted last behind =>
    have told := h.ready _ submitted
    exact { h with record := told.congr told.live rfl rfl behind.le rfl }
  | prepare present reported =>
    refine { h with record := h.record.congr h.record.live rfl rfl ?_ rfl }
    change _ ≤ if _ then _ else _
    split
    · exact le_max_left _ _
    · exact le_rfl
  | advance taken due serving valid =>
    exact { h with record := h.record.congr h.record.live rfl rfl (le_max_left _ _) rfl }
  | prune present applied =>
    exact { h with record := h.record.congr h.record.live rfl rfl le_rfl rfl }
  | submit taken accepts same =>
    rw [← same]
    exact { h with record := h.record.congr h.record.live rfl rfl le_rfl rfl }
  | release present =>
    exact { h with record := h.record.congr h.record.live rfl rfl le_rfl rfl }
  | putAside taken due same serving aside sequence ok =>
    obtain ⟨buffered, rfl⟩ := reduceBufferFutureForward_eq ok
    exact { h with record := h.record.congr h.record.live rfl rfl le_rfl rfl }
  | buffer taken feeds same ok | stage taken feeds same ok =>
    exact { h with record := h.record.forwardWrite ok }
  | confirm taken returns present same behind =>
    refine { h with record := ⟨h.record.live, h.record.token, ?_⟩ }
    intro hnamed
    have reached := returned _ _ _ _ taken returns
    rw [NodeSlot.assignmentMatchesReplayTarget, decide_eq_true_eq] at same
    rw [← same.2.1, ← same.2.2] at reached
    exact reached
  | sync answered same present version node target ahead stored =>
    refine { h with record := h.record.synced ?_ }
    rw [ReplicaAssignment.upstream, node, target]
    exact start.answers _ (NodeSlot.delivered_mem answered)
  | create =>
    exact { h with record := ⟨nofun, le_rfl, fun _ => Nat.zero_le _⟩ }
  | found =>
    exact { h with record := .joined (Nat.zero_le _) }
  | join answered =>
    exact { h with record := .joined (start.answers _ (NodeSlot.delivered_mem answered)) }
  | abandon | remove | vanish => exact { h with record := .absent }
  | restate present next taken =>
    rename_i state
    have live : state ≠ .recovered := by
      rcases next with ⟨-, rfl⟩ | ⟨-, rfl⟩ <;> decide
    exact { h with record := h.record.congr live rfl rfl le_rfl rfl }
  | reassign taken same present other =>
    subst taken
    refine { h with record := h.record.reassigned ?_ }
    rw [same]
    intro hchanged hnamed
    simp only [NodeSlot.informed, hchanged, hnamed, Bool.not_true, Bool.false_or, decide_false,
      decide_eq_true_eq] at informed
    exact informed
  | resume resumes recovered same =>
    rcases recovered with ⟨hrecovered, -⟩ | hresumed
    · exact absurd hrecovered h.record.live
    · rw [start.resumes] at hresumed
      cases hresumed
  | evict =>
    exact ⟨.absent, List.forall_mem_nil _, List.forall_mem_nil _, List.forall_mem_nil _,
      List.forall_mem_nil _, rfl⟩
  | rebuild answered =>
    exact { h with record := .rebuilt (start.answers _ (NodeSlot.delivered_mem answered)) }
  | materialize =>
    rcases c.materialize_cases with hsame | hdropped | ⟨data, taken, next, height, -, -, -, htaken⟩
    · rw [hsame]
      exact h
    · rw [hdropped]
      exact { h with }
    · rw [htaken]
      exact { h with }
  | restart taken =>
    rw [taken] at informed
    cases informed

/-! ## The cluster -/

theorem NodeSlot.acceptsAdvance_take {next : NodeSlot} {req : CommitAdvanceRequest}
    (h : n.acceptsAdvance = some req) (htake : n.take (.event .task) = some next) :
    req.committedThrough ≤ next.record.highestCommitTokenReceived := by
  rw [NodeSlot.acceptsAdvance.eq_def] at h
  split at h
  · rename_i held rest htasks
    split at h
    · rename_i record hrecord
      split at h
      · rename_i hvalid
        cases h
        have served : { n with tasks := rest }.replicationRecord = .ok record := hrecord
        simp only [NodeSlot.take, NodeSlot.step, htasks, NodeSlot.runTask,
          NodeSlot.commitAdvanceReconciled, served, hvalid, Option.some.injEq] at htake
        rw [← htake]
        split
        · exact le_max_right _ _
        · exact le_max_right _ _
      · cases h
    · cases h
  · cases h

theorem Cluster.fetchSnapshot_le {resolve : String → String} {cluster : Cluster} {source : String}
    {reply : Snapshot × Nat} (h : cluster.fetchSnapshot resolve source = some reply) :
    reply.2 ≤ (cluster.nodes (resolve source)).record.highestCommittedSequence := by
  simp only [Cluster.fetchSnapshot, NodeSlot.handleCommittedSnapshotWithSequence,
    Option.ite_none_right_eq_some, Option.map_eq_some_iff] at h
  obtain ⟨-, data, -, rfl⟩ := h
  split
  · exact le_rfl
  · exact Nat.zero_le _

namespace TokenCluster

variable {resolve : String → String} {state next : TokenCluster} {action : Action}

structure Sound (resolve : String → String) (state : TokenCluster) : Prop where
  told : ∀ id, (state.cluster.nodes id).core.Told (state.known resolve)
  token : ∀ id, (state.cluster.nodes id).record.highestCommitTokenReceived ≤ state.received id
  accepted : ∀ entry ∈ state.accepted, entry.2.committedThrough ≤ state.received entry.1

def initial (config : String → NodeConfig) : TokenCluster where
  cluster := .initial config

theorem Sound.initial (config : String → NodeConfig) : (initial config).Sound resolve where
  told := fun _ => ⟨.absent, List.forall_mem_nil _, List.forall_mem_nil _, List.forall_mem_nil _,
    List.forall_mem_nil _, rfl⟩
  token := fun _ => le_rfl
  accepted := List.forall_mem_nil _

/-- A snapshot holds no more than its source has been told to commit. -/
theorem Sound.fetched (h : state.Sound resolve) {source : String} {reply : Snapshot × Nat}
    (hfetched : state.cluster.fetchSnapshot resolve source = some reply) :
    reply.2 ≤ state.known resolve source :=
  calc reply.2
    _ ≤ (state.cluster.nodes (resolve source)).record.highestCommittedSequence :=
      Cluster.fetchSnapshot_le hfetched
    _ ≤ (state.cluster.nodes (resolve source)).record.highestCommitTokenReceived :=
      (h.told (resolve source)).record.token
    _ ≤ state.known resolve source := h.token (resolve source)

theorem Sound.take (h : state.Sound resolve) {id : String} {input : NodeInput} {taken : NodeSlot}
    (informed : state.informed resolve action = true)
    (answered : state.answered resolve action = true)
    (hands : state.cluster.Hands resolve action id input)
    (htake : (state.cluster.nodes id).take input = some taken) :
    taken.core.Told (state.known resolve) := by
  have hinformed : (state.cluster.nodes id).informed (state.known resolve) input = true := by
    cases hands with
    | event | restart => exact informed
    | message | snapshot | catchup | tail => rfl
  have hfetched : ∀ use reply, (state.cluster.nodes id).Fetched input use reply →
      reply.2 ≤ state.known resolve use.source := by
    intro use reply served
    cases hands with
    | snapshot awaited fetched =>
      cases served with
      | snapshot asked =>
        cases awaited.symm.trans asked
        have listed := (h.told id).awaits (use, _)
          (NodeSlot.mem_awaits (List.head?_eq_some_iff.mpr ⟨_, awaited⟩))
        rw [← listed]
        exact h.fetched fetched
    | catchup awaited fetched =>
      cases served with
      | catchup asked =>
        cases awaited.symm.trans asked
        exact h.fetched fetched
    | event | message | tail | restart => cases served
  refine NodeSlot.take_keeps _ htake (h.told id) ?_
  intro c d hc heffect
  refine Core.Told.effect hinformed hfetched ?_ (h.told id) hc heffect
  rintro index req nodeID target rfl hcall
  cases hands
  simp only [TokenCluster.answered, hcall, decide_eq_true_eq] at answered
  exact h.accepted _ answered

theorem accepts_le (state : TokenCluster) {id : String} {input : NodeInput} {taken : NodeSlot}
    {entry : String × CommitAdvanceRequest} (hands : state.cluster.Hands resolve action id input)
    (htake : (state.cluster.nodes id).take input = some taken)
    (hmem : entry ∈ state.accepts action) :
    entry.2.committedThrough ≤
      ((state.cluster.move id taken).nodes entry.1).record.highestCommitTokenReceived := by
  rw [TokenCluster.accepts.eq_def] at hmem
  split at hmem
  · rename_i node
    rw [Option.mem_toList, Option.map_eq_some_iff] at hmem
    obtain ⟨req, haccepts, rfl⟩ := hmem
    cases hands
    have reached := NodeSlot.acceptsAdvance_take haccepts htake
    rw [Cluster.move]
    dsimp only
    rw [Function.update_self]
    exact reached
  · cases hmem

theorem Sound.step (h : state.Sound resolve) (informed : state.informed resolve action = true)
    (hstep : state.step resolve action = some next) : next.Sound resolve := by
  rw [TokenCluster.step] at hstep
  split at hstep
  · rename_i answered
    obtain ⟨cluster, hcluster, rfl⟩ := Option.map_eq_some_iff.mp hstep
    have grown : ∀ target, state.known resolve target ≤ TokenCluster.known resolve
        { cluster
          received := fun id =>
            max (state.received id) (cluster.nodes id).record.highestCommitTokenReceived
          accepted := state.accepted ++ state.accepts action } target :=
      fun _ => le_max_left _ _
    rcases Cluster.step_takes hcluster with
      ⟨⟨index, rfl⟩, hsame⟩ | ⟨id, input, taken, hands, htake, rfl⟩
    · refine ⟨?_, fun _ => le_max_right _ _, ?_⟩
      · intro place
        have told : (cluster.nodes place).core.Told (state.known resolve) := by
          rw [hsame]
          exact h.told place
        exact told.mono grown
      · intro entry hmem
        change entry ∈ state.accepted ++ [] at hmem
        rw [List.append_nil] at hmem
        exact (h.accepted entry hmem).trans (le_max_left _ _)
    have told := h.take informed answered hands htake
    have moved : ∀ place,
        ((state.cluster.move id taken).nodes place).core.Told (state.known resolve) := by
      intro place
      rw [Cluster.move]
      dsimp only
      by_cases hplace : place = id
      · subst hplace
        rw [Function.update_self]
        exact { told with }
      · rw [Function.update_of_ne hplace]
        exact h.told place
    refine ⟨fun place => (moved place).mono grown, fun _ => le_max_right _ _, ?_⟩
    · intro entry hmem
      rcases List.mem_append.mp hmem with hheld | hnew
      · exact (h.accepted entry hheld).trans (le_max_left _ _)
      · exact (state.accepts_le hands htake hnew).trans (le_max_right _ _)
  · cases hstep

theorem Sound.honest (h : state.Sound resolve) : state.Honest resolve := by
  intro id record active hnamed
  exact (h.told id).record.confirmed hnamed

end TokenCluster

def activates (id : String) : List Action :=
  .node id (.readyReported true) :: .node id (.command .activateReplicaReady) :: goOn id 5

end Craq.Storage
