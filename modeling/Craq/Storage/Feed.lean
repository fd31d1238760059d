import Craq.Storage.Repeat

/-! # Who feeds the log of a replica

For every forward that the owner takes, the sender, the chain version it was sent under and the
assignment the replica held at that moment are put on record.  A forward that a replica buffers or
stages is to have such a receipt in which the sender is the assigned predecessor.
-/

namespace Craq.Storage

open Lib (Reaches run guarded)

/-! ## Receipts -/

/-- A forward and the assignment the replica held when the owner took it. -/
structure Receipt where
  req : ForwardWriteRequest
  assignment : ReplicaAssignment
deriving DecidableEq

/-- The sender is the predecessor that was assigned, under the chain version that was held. -/
structure Receipt.Valid (receipt : Receipt) : Prop where
  assigned : receipt.assignment.peers.predecessorNodeID ≠ ""
  sender : receipt.req.fromNodeID = receipt.assignment.peers.predecessorNodeID
  version : receipt.req.chainVersion = receipt.assignment.chainVersion

instance (receipt : Receipt) : Decidable receipt.Valid :=
  decidable_of_iff
    (receipt.assignment.peers.predecessorNodeID ≠ "" ∧
      receipt.req.fromNodeID = receipt.assignment.peers.predecessorNodeID ∧
      receipt.req.chainVersion = receipt.assignment.chainVersion)
    ⟨fun h => ⟨h.1, h.2.1, h.2.2⟩, fun h => ⟨h.assigned, h.sender, h.version⟩⟩

/-- The operation was received from its sender when that was the assigned predecessor. -/
def ForwardWriteRequest.Received (receipts : List Receipt) (held : ForwardWriteRequest) : Prop :=
  ∃ receipt ∈ receipts, receipt.Valid ∧ receipt.req.operation = held.operation ∧
    receipt.req.fromNodeID = held.fromNodeID

instance (receipts : List Receipt) (held : ForwardWriteRequest) :
    Decidable (held.Received receipts) :=
  inferInstanceAs (Decidable (∃ receipt ∈ receipts, receipt.Valid ∧
    receipt.req.operation = held.operation ∧ receipt.req.fromNodeID = held.fromNodeID))

/-- Everything the replica buffers or stages was received from the predecessor. -/
structure ReplicaRecord.Fed (receipts : List Receipt) (record : ReplicaRecord) : Prop where
  staged : ∀ (sequence : Nat) (held : ForwardWriteRequest),
    record.stagedForwards[sequence]? = some held → held.Received receipts
  buffered : ∀ (sequence : Nat) (held : ForwardWriteRequest),
    record.bufferedForwards[sequence]? = some held → held.Received receipts

variable {receipts : List Receipt}

theorem ForwardWriteRequest.Received.append {held : ForwardWriteRequest}
    (h : held.Received receipts) (more : List Receipt) : held.Received (receipts ++ more) := by
  obtain ⟨receipt, hmem, hreceipt⟩ := h
  exact ⟨receipt, List.mem_append_left more hmem, hreceipt⟩

/-! ## What a replica does with what it has -/

namespace ReplicaRecord.Fed

variable {receipts : List Receipt} {record next : ReplicaRecord} {req : ForwardWriteRequest}
  {limits : BufferLimits}

theorem of_empty (staged : record.stagedForwards = ∅) (buffered : record.bufferedForwards = ∅) :
    record.Fed receipts := by
  constructor
  · simp [staged]
  · simp [buffered]

theorem of_kept (h : record.Fed receipts)
    (staged : ∀ (sequence : Nat) (held : ForwardWriteRequest),
      next.stagedForwards[sequence]? = some held →
        ∃ before, record.stagedForwards[sequence]? = some before ∧
          before.operation = held.operation ∧ before.fromNodeID = held.fromNodeID)
    (buffered : ∀ (sequence : Nat) (held : ForwardWriteRequest),
      next.bufferedForwards[sequence]? = some held →
        ∃ before, record.bufferedForwards[sequence]? = some before ∧
          before.operation = held.operation ∧ before.fromNodeID = held.fromNodeID) :
    next.Fed receipts := by
  have renamed : ∀ {before held : ForwardWriteRequest}, before.Received receipts →
      before.operation = held.operation → before.fromNodeID = held.fromNodeID →
      held.Received receipts := by
    rintro before held ⟨receipt, hmem, hvalid, hop, hfrom⟩ hsame hsender
    exact ⟨receipt, hmem, hvalid, hop.trans hsame, hfrom.trans hsender⟩
  constructor
  · intro sequence held hheld
    obtain ⟨before, hbefore, hop, hfrom⟩ := staged sequence held hheld
    exact renamed (h.staged sequence before hbefore) hop hfrom
  · intro sequence held hheld
    obtain ⟨before, hbefore, hop, hfrom⟩ := buffered sequence held hheld
    exact renamed (h.buffered sequence before hbefore) hop hfrom

theorem congr (h : record.Fed receipts) (staged : next.stagedForwards = record.stagedForwards)
    (buffered : next.bufferedForwards = record.bufferedForwards) : next.Fed receipts :=
  ⟨staged ▸ h.staged, buffered ▸ h.buffered⟩

theorem append (h : record.Fed receipts) (more : List Receipt) : record.Fed (receipts ++ more) :=
  ⟨fun sequence held hheld => (h.staged sequence held hheld).append more,
    fun sequence held hheld => (h.buffered sequence held hheld).append more⟩

theorem retains (h : record.Fed receipts) (hretains : record.Retains next) : next.Fed receipts where
  staged := fun sequence held hheld => h.staged sequence held (hretains.staged sequence held hheld)
  buffered := hretains.buffered ▸ h.buffered

theorem synced (h : record.Fed receipts) (highest : Nat) :
    (NodeSlot.reduceSyncedPredecessorState record highest).Fed receipts := by
  have ⟨_, staged, _, buffered, _⟩ := reduceSyncedPredecessorState_forwards record highest
  refine h.of_kept ?_ ?_
  · intro sequence held hheld
    rw [staged, Std.ExtTreeMap.getElem?_filter'] at hheld
    exact ⟨held, (Option.filter_eq_some_iff.mp hheld).1, rfl, rfl⟩
  · intro sequence held hheld
    rw [buffered, Std.ExtTreeMap.getElem?_filter'] at hheld
    exact ⟨held, (Option.filter_eq_some_iff.mp hheld).1, rfl, rfl⟩

theorem retargetForwards_sender {forwards : SequenceMap ForwardWriteRequest} {sequence : Nat}
    {held : ForwardWriteRequest}
    (h : (NodeSlot.retargetForwards record forwards)[sequence]? = some held) :
    ∃ before, forwards[sequence]? = some before ∧ before.operation = held.operation ∧
      before.fromNodeID = held.fromNodeID := by
  rw [NodeSlot.retargetForwards, Std.ExtTreeMap.getElem?_map, Std.ExtTreeMap.getElem?_filter'] at h
  obtain ⟨before, hbefore, heq⟩ := Option.map_eq_some_iff.mp h
  refine ⟨before, (Option.filter_eq_some_iff.mp hbefore).1, ?_⟩
  rw [← heq]
  split
  · exact ⟨rfl, rfl⟩
  · exact ⟨rfl, rfl⟩

theorem reassigned (h : record.Fed receipts) (assignment : ReplicaAssignment) :
    (NodeSlot.reassigned record assignment).Fed receipts := by
  have followed : (NodeSlot.followPredecessor record.assignment
      (NodeSlot.withAssignment record assignment)).Fed receipts := by
    rw [NodeSlot.followPredecessor]
    split
    · refine h.of_kept ?_ ?_
      · intro sequence held hheld
        exact retargetForwards_sender hheld
      · intro sequence held hheld
        exact retargetForwards_sender hheld
    · exact h.congr rfl rfl
  rw [NodeSlot.reassigned, NodeSlot.followSuccessor]
  dsimp only
  repeat' split
  · exact followed
  · exact followed.congr rfl rfl
  · exact followed.congr rfl rfl

theorem bufferFutureForward (h : record.Fed receipts)
    (hreq : record.bufferedForwards[req.operation.sequence]? = none → req.Received receipts)
    (hok : reduceBufferFutureForward record req limits = .ok next) : next.Fed receipts := by
  rw [reduceBufferFutureForward] at hok
  split at hok
  · split at hok
    · cases hok
      exact h
    · cases hok
  · rename_i hnone
    obtain ⟨_, _, hnext⟩ := Lib.bind_eq_ok.mp hok
    cases hnext
    refine ⟨h.staged, ?_⟩
    intro sequence held hheld
    rw [Lib.getElem?_insert_ite] at hheld
    split at hheld
    · cases hheld
      exact hreq hnone
    · exact h.buffered sequence held hheld

theorem stageForward (h : record.Fed receipts) (hreq : req.Received receipts) :
    (reduceStageForward record req).Fed receipts := by
  have dropped : ∀ (sequence : Nat) (held : ForwardWriteRequest),
      (record.bufferedForwards.erase req.operation.sequence)[sequence]? = some held →
        held.Received receipts := by
    intro sequence held hheld
    rw [Lib.getElem?_erase_ite] at hheld
    split at hheld
    · cases hheld
    · exact h.buffered sequence held hheld
  rw [reduceStageForward]
  dsimp only
  split
  · exact ⟨h.staged, dropped⟩
  · refine ⟨?_, dropped⟩
    intro sequence held hheld
    have hstaged : (record.stagedForwards.insert req.operation.sequence req)[sequence]? =
        some held := hheld
    rw [Lib.getElem?_insert_ite] at hstaged
    split at hstaged
    · cases hstaged
      exact hreq
    · exact h.staged sequence held hstaged

end ReplicaRecord.Fed

/-! ## What passes the check of the source -/

section Source

variable {record : ReplicaRecord} {req : ForwardWriteRequest}

theorem ReplicaRecord.Keeps.valid_of_new (h : record.Keeps)
    (hnext : record.nextSequence ≤ req.operation.sequence)
    (hbuffered : record.bufferedForwards[req.operation.sequence]? = none)
    (hok : validateForwardSource record req = .ok ()) : Receipt.Valid ⟨req, record.assignment⟩ := by
  have hrecent : record.recentCommittedForwards[req.operation.sequence]? = none := by
    by_contra hsome
    obtain ⟨held, hheld⟩ := Option.ne_none_iff_exists'.mp hsome
    have ⟨_, hlt, _⟩ := h.recent _ held hheld
    omega
  have hexpected : Storage.expectedForwardSource record req.operation.sequence =
      (record.assignment.peers.predecessorNodeID, record.assignment.chainVersion) := by
    rw [Storage.expectedForwardSource, h.not_staged hnext, hbuffered, hrecent]
  simp only [validateForwardSource, hexpected, Lib.ite_error_eq_ok, not_or, not_not] at hok
  obtain ⟨⟨hassigned, hsender⟩, hversion⟩ := hok
  refine ⟨hassigned, hsender.symm, ?_⟩
  split at hversion
  · split at hversion
    · rename_i hsame
      exact hsame.2.symm
    · cases hversion
  · rename_i hsame
    exact (not_not.mp hsame).symm

theorem ReplicaRecord.Keeps.sender_of_buffered (h : record.Keeps) {held : ForwardWriteRequest}
    (hnext : record.nextSequence ≤ req.operation.sequence)
    (hbuffered : record.bufferedForwards[req.operation.sequence]? = some held)
    (hok : validateForwardSource record req = .ok ()) : held.fromNodeID = req.fromNodeID := by
  have hexpected : Storage.expectedForwardSource record req.operation.sequence =
      (held.fromNodeID, held.chainVersion) := by
    rw [Storage.expectedForwardSource, h.not_staged hnext, hbuffered]
  simp only [validateForwardSource, hexpected, Lib.ite_error_eq_ok, not_or, not_not] at hok
  exact hok.1.2

end Source

/-! ## Runs -/

/-- A node and the receipts of the forwards its owner has taken. -/
structure FedNode where
  node : NodeSlot
  receipts : List Receipt := []

def NodeSlot.receipt (n : NodeSlot) : NodeInput → List Receipt
  | .event .task =>
    match n.tasks with
    | .forwardWrite req :: _ => [⟨req, n.record.assignment⟩]
    | _ => []
  | _ => []

def FedNode.step (state : FedNode) (input : NodeInput) : Option FedNode :=
  (state.node.take input).map fun next =>
    { node := next, receipts := state.receipts ++ state.node.receipt input }

/-- The forward of the next sequence is the predecessor's where the owner does not compare its
sender with the predecessor: when the forward is put aside, and when another one is already buffered
under the sequence. -/
def NodeSlot.Checks (n : NodeSlot) (req : ForwardWriteRequest) : Prop :=
  req.operation.sequence = n.record.nextSequence →
    Receipt.Valid ⟨req, n.record.assignment⟩ ∨
      if n.SetsAside then n.record.bufferedForwards[n.record.nextSequence]? ≠ none
      else ∀ held ∈ n.record.bufferedForwards[n.record.nextSequence]?,
        req.operation = held.operation

instance (n : NodeSlot) (req : ForwardWriteRequest) : Decidable (n.Checks req) :=
  inferInstanceAs (Decidable (req.operation.sequence = n.record.nextSequence →
    Receipt.Valid ⟨req, n.record.assignment⟩ ∨
      if n.SetsAside then n.record.bufferedForwards[n.record.nextSequence]? ≠ none
      else ∀ held ∈ n.record.bufferedForwards[n.record.nextSequence]?,
        req.operation = held.operation))

/-- Every forward the input makes the owner take is one of those. -/
def NodeSlot.ChecksInput (n : NodeSlot) (input : NodeInput) : Prop :=
  ∀ receipt ∈ n.receipt input, n.Checks receipt.req

instance (n : NodeSlot) (input : NodeInput) : Decidable (n.ChecksInput input) :=
  inferInstanceAs (Decidable (∀ receipt ∈ n.receipt input, n.Checks receipt.req))

/-- What the node has fed into its log, as long as the forwards it does not compare are right. -/
structure ReplicaRecord.Feeds (receipts : List Receipt) (record : ReplicaRecord) : Prop where
  keeps : record.Keeps
  fed : record.Fed receipts

theorem ReplicaRecord.feeds_stable (receipts : List Receipt) :
    ReplicaRecord.Stable (ReplicaRecord.Feeds receipts) where
  empty := ⟨keeps_stable.empty, .of_empty rfl rfl⟩
  live := fun h => h.keeps.live
  confirmed := fun _ h => ⟨keeps_stable.confirmed _ h.keeps, h.fed.congr rfl rfl⟩
  advanced := fun _ h => ⟨keeps_stable.advanced _ h.keeps, h.fed.congr rfl rfl⟩
  prepared := fun _ h => ⟨keeps_stable.prepared _ h.keeps, h.fed.congr rfl rfl⟩
  committed := fun h hnext =>
    ⟨keeps_stable.committed h.keeps hnext, h.fed.retains (commitNext_retains hnext)⟩
  interrupted := fun h commits hchanged =>
    ⟨keeps_stable.interrupted h.keeps commits hchanged.keeps, hchanged.fed.staged, h.fed.buffered⟩
  pruned := fun _ h => ⟨keeps_stable.pruned _ h.keeps, h.fed.congr rfl rfl⟩
  released := fun _ h => ⟨keeps_stable.released _ h.keeps, h.fed.congr rfl rfl⟩
  restated := fun _ h hstate => ⟨keeps_stable.restated _ h.keeps hstate, h.fed.congr rfl rfl⟩
  submitted := fun h accepts => ⟨keeps_stable.submitted h.keeps accepts, h.fed.congr rfl rfl⟩
  synced := fun _ h => ⟨keeps_stable.synced _ h.keeps, h.fed.synced _⟩
  joining := fun _ => ⟨keeps_stable.joining _, .of_empty rfl rfl⟩
  joined := fun _ _ => ⟨keeps_stable.joined _ _, .of_empty rfl rfl⟩
  rebuilt := fun _ _ => ⟨keeps_stable.rebuilt _ _, .of_empty rfl rfl⟩
  reassigned := fun _ h => ⟨keeps_stable.reassigned _ h.keeps, h.fed.reassigned _⟩

theorem Core.Carries.feeds_append {c : Core} (h : c.Carries (ReplicaRecord.Feeds receipts))
    (more : List Receipt) :
    c.Carries (ReplicaRecord.Feeds (receipts ++ more)) where
  record := ⟨h.record.keeps, h.record.fed.append more⟩
  copies := fun copy hmem => ⟨(h.copies copy hmem).keeps, (h.copies copy hmem).fed.append more⟩
  ready := fun copy hmem => ⟨(h.ready copy hmem).keeps, (h.ready copy hmem).fed.append more⟩
  resumes := h.resumes

/-- What the owner does with a forward it takes, given that it passes the checks. -/
theorem ReplicaRecord.Feeds.forwardWrite {record reduced : ReplicaRecord}
    {req : ForwardWriteRequest} {limits : BufferLimits} {action : ReducerAction}
    (h : record.Feeds receipts)
    (hvalid : Receipt.Valid ⟨req, record.assignment⟩ → req.Received receipts)
    (hnext : ∀ held, record.bufferedForwards[record.nextSequence]? = some held →
      req.operation.sequence = record.nextSequence → held.fromNodeID = req.fromNodeID →
      req.Received receipts) (hok : reduceForwardWrite record req limits = .ok ⟨reduced, action⟩) :
    reduced.Feeds receipts := by
  refine ⟨h.keeps.forwardWrite hok, ?_⟩
  rw [reduceForwardWrite] at hok
  obtain ⟨_, hsource, hok⟩ := Lib.bind_eq_ok.mp hok
  split at hok
  · obtain ⟨_, _, hok⟩ := Lib.bind_eq_ok.mp hok
    cases hok
    exact h.fed
  rename_i hpast
  have hle : record.nextSequence ≤ req.operation.sequence := by omega
  split at hok
  · obtain ⟨next, hbuffer, hok⟩ := Lib.bind_eq_ok.mp hok
    cases hok
    refine h.fed.bufferFutureForward ?_ hbuffer
    intro hnone
    exact hvalid (h.keeps.valid_of_new hle hnone hsource)
  · cases hok
    have hsequence : req.operation.sequence = record.nextSequence := by omega
    refine h.fed.stageForward ?_
    cases hbuffered : record.bufferedForwards[req.operation.sequence]? with
    | none => exact hvalid (h.keeps.valid_of_new hle hbuffered hsource)
    | some held =>
      have hsender := h.keeps.sender_of_buffered hle hbuffered hsource
      exact hnext held (hsequence ▸ hbuffered) hsequence hsender

theorem NodeSlot.feeds_takesForward {n : NodeSlot} (h : n.record.Feeds receipts)
    (hreceipt : ∀ req, n.tasks.head? = some (.forwardWrite req) →
      ⟨req, n.record.assignment⟩ ∈ receipts ∧ n.Checks req) :
    n.TakesForward (ReplicaRecord.Feeds receipts) where
  aside := by
    intro req buffered due serving aside hsequence hok
    have ⟨hmem, hchecks⟩ := hreceipt req due
    refine ⟨h.keeps.bufferFutureForward hsequence.ge hok, h.fed.bufferFutureForward ?_ hok⟩
    intro hnone
    rcases hchecks hsequence with hown | hother
    · exact ⟨_, hmem, hown, rfl, rfl⟩
    · rw [if_pos aside, ← hsequence] at hother
      exact absurd hnone hother
  reduced := by
    intro req reduced action feeds hok
    cases feeds with
    | received due serving taken =>
      have ⟨hmem, hchecks⟩ := hreceipt req due
      refine h.forwardWrite (fun hown => ⟨_, hmem, hown, rfl, rfl⟩) ?_ hok
      intro held hheld hsequence hsender
      rcases hchecks hsequence with hown | hother
      · exact ⟨_, hmem, hown, rfl, rfl⟩
      · have hforward : ¬ n.SetsAside := fun aside => taken ⟨aside, hsequence⟩
        rw [if_neg hforward] at hother
        obtain ⟨receipt, hreceived, hvalid⟩ := h.fed.buffered _ held hheld
        exact ⟨receipt, hreceived, hvalid.1, hvalid.2.1.trans (hother held hheld).symm,
          hvalid.2.2.trans hsender⟩
    | drained due buffered =>
      -- A drained forward is staged as it was buffered.
      have received := h.fed.buffered _ req buffered
      exact h.forwardWrite (fun _ => received) (fun _ _ _ _ => received) hok

theorem FedNode.carries_step {state next : FedNode} {input : NodeInput}
    (h : state.node.core.Carries (ReplicaRecord.Feeds state.receipts))
    (hinput : input.Continues = true) (hchecks : state.node.ChecksInput input)
    (hstep : state.step input = some next) :
    next.node.core.Carries (ReplicaRecord.Feeds next.receipts) := by
  obtain ⟨taken, htake, rfl⟩ := Option.map_eq_some_iff.mp hstep
  have feeds := h.feeds_append (state.node.receipt input)
  refine feeds.take (ReplicaRecord.feeds_stable _) hinput ?_ htake
  rintro rfl
  refine NodeSlot.feeds_takesForward feeds.record ?_
  intro req due
  obtain ⟨rest, htasks⟩ := List.head?_eq_some_iff.mp due
  have hreceipt : state.node.receipt (.event .task) = [⟨req, state.node.record.assignment⟩] := by
    simp only [NodeSlot.receipt, htasks]
  refine ⟨?_, hchecks ⟨req, state.node.record.assignment⟩ ?_⟩
  · rw [hreceipt]
    exact List.mem_append_right _ List.mem_cons_self
  · rw [hreceipt]
    exact List.mem_cons_self

/-- As long as the forwards that the owner does not compare with the predecessor come from it, every
forward that a replica buffers or stages has come from the predecessor assigned when it was
received. -/
theorem log_fed_by_predecessor {config : NodeConfig} {state : FedNode}
    (h : Reaches FedNode.step
      (fun state input => input.Continues = true ∧ state.node.ChecksInput input)
      { node := { config } } state) :
    state.node.record.Fed state.receipts := by
  let Kept := fun state : FedNode =>
    state.node.core.Carries (ReplicaRecord.Feeds state.receipts)
  have kept : Kept state := by
    apply h.invariant
    · exact .fresh (ReplicaRecord.feeds_stable []) config
    · intro state input next hstate hallowed hstep
      exact FedNode.carries_step hstate hallowed.1 hallowed.2 hstep
  exact kept.record.fed

/-! ## A tail and a replica on its own -/

def FedNode.passes (state : FedNode) (input : NodeInput) : Bool :=
  input.Continues && decide (state.node.ChecksInput input)

theorem FedNode.allowed_of_passes (state : FedNode) (input : NodeInput)
    (h : state.passes input = true) :
    input.Continues = true ∧ state.node.ChecksInput input := by
  simpa [FedNode.passes] using h

theorem stageOne_fed_runs : (run (guarded FedNode.passes FedNode.step) stageOne
    { node := { config := plainConfig "c" } }).isSome = true := by
  decide +kernel

/-- The tail of a chain stages what `b` sends. -/
theorem stageOne_fed : ∃ state : FedNode,
    state.node.record.stagedForwards[1]? = some (forwardFrom "b" 1 (putOperation 1 "v")) ∧
      state.node.record.Fed state.receipts := by
  refine ⟨(run (guarded FedNode.passes FedNode.step) stageOne
    { node := { config := plainConfig "c" } }).get stageOne_fed_runs, ?_, ?_⟩
  · decide +kernel
  · exact log_fed_by_predecessor (.of_guarded_run FedNode.allowed_of_passes
      (Option.some_get stageOne_fed_runs).symm)

def alone : ReplicaAssignment where
  chainVersion := 1
  role := .single
  peers := { tailNodeID := "c" }

def proceed (count : Nat) : List NodeInput :=
  List.replicate count (.event .task)

def openAlone : List NodeInput :=
  [.event (.command (.addReplicaAsTail alone)), .event (.command .prepareActivation),
    .event (.readyReported true), .event (.command .activateReplicaReady)] ++ proceed 5

def commitUnderWay : List NodeInput :=
  openAlone ++
    [.event (.submitWrite { call := 0, kind := .put, key := "k", value := "v" }),
      .event (.flushPrepare none), .event (.completion 0)] ++ proceed 2

/-- A node that is in no chain with the replica sends it an operation, which is put aside and taken
up when the commit is through. -/
def strangerFeeds : List NodeInput :=
  commitUnderWay ++ receive (forwardFrom "x" 9 (putOperation 2 "w")) ++
    [.event (.flushCommitRange 1 1 none), .event (.completion 0)] ++ proceed 7

theorem strangerFeeds_runs : (run FedNode.step strangerFeeds
    { node := { config := plainConfig "c" } }).isSome = true := by
  decide +kernel

theorem strangerFeeds_continues : ∀ input ∈ strangerFeeds, input.Continues = true := by
  decide

def strangerFed : FedNode :=
  (run FedNode.step strangerFeeds { node := { config := plainConfig "c" } }).get strangerFeeds_runs

/-- The replica has no predecessor at all and stages what the stranger sent. -/
theorem stranger_feeds_log :
    Reaches FedNode.step (fun _ input => input.Continues = true)
        { node := { config := plainConfig "c" } } strangerFed ∧
      strangerFed.node.record.assignment = alone ∧
      strangerFed.node.record.stagedForwards[2]? =
        some (forwardFrom "x" 9 (putOperation 2 "w")) ∧
      strangerFed.receipts = [⟨forwardFrom "x" 9 (putOperation 2 "w"), alone⟩] ∧
      ¬ strangerFed.node.record.Fed strangerFed.receipts := by
  have staged : strangerFed.node.record.stagedForwards[2]? =
      some (forwardFrom "x" 9 (putOperation 2 "w")) := by
    decide +kernel
  refine ⟨?_, ?_, staged, ?_, ?_⟩
  · exact .of_run (fun input hmem _ => strangerFeeds_continues input hmem)
      (Option.some_get strangerFeeds_runs).symm
  · decide +kernel
  · decide +kernel
  · intro fed
    have received := fed.staged 2 _ staged
    revert received
    decide +kernel

end Craq.Storage
