import Craq.Storage.Agreement

/-! # What a forward is answered with

A call of `ForwardWrite` ends with an error of the transport or with the answer of the node at its
other end.  That node refuses the forward, or answers once its own append and its own forward have
ended: so an error that arises at one node may travel up the chain.
-/

namespace Craq.Storage

open Coordinator (quoted)

/-! ## Where errors arise -/

inductive JournalStep where
  | marshal
  | stat
  | close
  | openNext
  | write
  | sync
deriving DecidableEq, Repr

def JournalStep.text : JournalStep → String
  | .marshal => "marshal journal record"
  | .stat => "stat commit journal segment"
  | .close => "close commit journal segment"
  | .openNext => "open commit journal segment"
  | .write => "write commit journal"
  | .sync => "sync commit journal"

inductive JournalError where
  | failed (step : JournalStep) (text : String)
  | recordTooLarge
  | payloadTooLarge
  | noJournal
  | noShard
  | closed
deriving DecidableEq, Repr

def JournalError.error : JournalError → Error
  | .failed step text => .wrapped step.text (.fault text)
  | .recordTooLarge => .sentinel .invalidConfig "journal record too large"
  | .payloadTooLarge => .sentinel .invalidConfig "journal record payload too large"
  | .noJournal => .sentinel .invalidConfig "commit journal unavailable"
  | .noShard =>
    .wrapped "err in n.commitJournal.submitPrepare"
      (.sentinel .invalidConfig "commit journal unavailable")
  | .closed => .wrapped "err in n.commitJournal.submitPrepare" (.sentinel .canceled "")

inductive TransportError where
  | unknownNode (nodeID : String)
  | queueFull (target : String)
  | denied (message : String)
  | undecodable (text : String)
  | canceled
  | deadlineExceeded
deriving DecidableEq, Repr

def TransportError.error : TransportError → Error
  | .unknownNode nodeID => .fault s!"storage snapshot source unavailable: node {quoted nodeID}"
  | .queueFull target =>
    .fault s!"storage replica backpressure: replication session queue full for {quoted target}"
  | .denied message => .fault message
  | .undecodable text => .wrapped "unmarshal replication error status" (.fault text)
  | .canceled => .sentinel .canceled ""
  | .deadlineExceeded => .sentinel .deadlineExceeded ""

/-! ## How answers travel -/

namespace Error

def routingMismatch? : Error → Option RoutingMismatchError
  | .routingMismatch mismatch => some mismatch
  | .wrapped _ cause => cause.routingMismatch?
  | .readDependency _ _ _ cause => cause.routingMismatch?
  | _ => none

def backpressure? : Error → Option (BackpressureResource × Int × Nat × Nat)
  | .backpressure resource slot current limit => some (resource, slot, current, limit)
  | .wrapped _ cause => cause.backpressure?
  | .readDependency _ _ _ cause => cause.backpressure?
  | _ => none

def readDependency? : Error → Option (Nat × Nat × String)
  | .readDependency slot expectedChainVersion tailNodeID _ =>
    some (slot, expectedChainVersion, tailNodeID)
  | .wrapped _ cause => cause.readDependency?
  | _ => none

def domainSentinels : List Sentinel :=
  [.unknownReplica, .writeRejected, .sequenceMismatch, .peerMismatch, .stateMismatch,
    .protocolConflict, .conditionFailed, .invalidTransition]

/-- What the caller of a replication stream is told of an answer, whose text is `message`.  A request
that met replica back pressure is not over: it goes back to the session's backlog. -/
def streamed (message : String) (err : Error) : Option Error :=
  match err.routingMismatch? with
  | some mismatch => some (.routingMismatch mismatch)
  | none =>
    if err.is .conditionFailed then some (.sentinel .conditionFailed "")
    else
      match err.backpressure? with
      | some (.replicaBuffer, _) => none
      | some (resource, slot, current, limit) => some (.backpressure resource slot current limit)
      | none =>
        match err.readDependency? with
        | some (slot, expectedChainVersion, tailNodeID) =>
          some (.readDependency slot expectedChainVersion tailNodeID (.fault message))
        | none =>
          match domainSentinels.find? err.is with
          | some found => some (.sentinel found "")
          | none =>
            if err.is .deadlineExceeded then some (.sentinel .deadlineExceeded "")
            else if err.is .canceled then some (.sentinel .canceled "")
            else some (.fault message)

end Error

inductive Carrier where
  | inMemory
  | stream (message : String)
deriving DecidableEq, Repr

def Carrier.carry (err : Error) : Carrier → Option Error
  | .inMemory => some (.wrapped "err in node.HandleForwardWrite" err)
  | .stream message => err.streamed message

/-! ## The forward handler -/

namespace NodeSlot

variable (n : NodeSlot)

/-- The error with which the owner refuses the forward at once. -/
def forwardRefusal (req : ForwardWriteRequest) : Option Error :=
  match n.replicationRecord with
  | .error err => some err
  | .ok record =>
    if record.assignment.peers.successorNodeID = "" ∧ n.runtime.commitEffectInFlight ∧
        req.operation.sequence = record.nextSequence then
      match reduceBufferFutureForward record req n.bufferLimits with
      | .error err => some err
      | .ok _ => none
    else
      match reduceForwardWrite record req n.bufferLimits with
      | .error err => some err
      | .ok _ => none

theorem forwardWriteReconciled_of_refused {req : ForwardWriteRequest} {err : Error}
    (h : n.forwardRefusal req = some err) : n.forwardWriteReconciled req = n := by
  rw [forwardRefusal] at h
  rw [forwardWriteReconciled]
  cases hrecord : n.replicationRecord with
  | error cause => rfl
  | ok record =>
    rw [hrecord] at h
    dsimp only at h ⊢
    split at h
    · rename_i aside
      rw [if_pos aside]
      cases hbuffer : reduceBufferFutureForward record req n.bufferLimits with
      | error cause => rfl
      | ok buffered =>
        rw [hbuffer] at h
        cases h
    · rename_i aside
      rw [if_neg aside]
      cases hreduce : reduceForwardWrite record req n.bufferLimits with
      | error cause => rfl
      | ok reduced =>
        rw [hreduce] at h
        cases h

/-- What the node answers when the append or the forward of a forwarded write has ended. -/
def pipelineAnswers : Option Error → List Error
  | some err => [.wrapped "err in n.repl.ForwardWrite" err]
  | none =>
    if n.runtime.present then []
    else [n.unknownSlot, .wrapped "err in n.repl.ForwardWrite" n.unknownSlot]

/-- The errors with which the node may answer a forward while it takes the event. -/
def forwardAnswers : NodeEvent → List Error
  | .task =>
    match n.tasks with
    | .forwardWrite req :: _ => (n.forwardRefusal req).toList
    | .afterPrepare .tail err :: _ => err.toList
    | .afterPrepare (.pipeline _) err :: _ => n.pipelineAnswers err
    | _ => []
  | .callReturned _ err => n.pipelineAnswers err
  | _ => []

end NodeSlot

def Cluster.forwardAnswers (cluster : Cluster) : Action → List Error
  | .node id event => (cluster.nodes id).forwardAnswers event
  | _ => []

/-! ## Classes of errors -/

/-- The class has the errors that arise at a node, in its journal or in the transport. -/
structure ErrorClass.Local (E : ErrorClass) : Prop where
  own : E.Own
  fault : ∀ text, E.holds (.fault text)
  backpressure : ∀ resource slot current limit, E.holds (.backpressure resource slot current limit)

/-- The computation fails with errors of the class only. -/
def ErrorClass.Covers (E : ErrorClass) {A : Type} (result : Except Error A) : Prop :=
  ∀ err, result = .error err → E.holds err

namespace ErrorClass.Covers

variable {E : ErrorClass} {A B : Type}

theorem ok (value : A) : E.Covers (.ok value) := nofun

theorem error {err : Error} (h : E.holds err) : E.Covers (.error err : Except Error A) := by
  rintro cause ⟨⟩
  exact h

theorem ite {p : Prop} [Decidable p] {first second : Except Error A} (hfirst : E.Covers first)
    (hsecond : E.Covers second) : E.Covers (if p then first else second) := by
  split
  · exact hfirst
  · exact hsecond

theorem bind {first : Except Error A} {next : A → Except Error B} (hfirst : E.Covers first)
    (hnext : ∀ value, E.Covers (next value)) : E.Covers (first >>= next) := by
  cases first with
  | error err => exact .error (hfirst err rfl)
  | ok value => exact hnext value

end ErrorClass.Covers

namespace ErrorClass.Local

variable {E : ErrorClass} (h : E.Local)

include h

theorem journal (err : JournalError) : E.holds err.error := by
  cases err with
  | failed step text => exact E.wrapped _ _ (h.fault text)
  | recordTooLarge | payloadTooLarge | noJournal => exact h.own _ _
  | noShard | closed => exact E.wrapped _ _ (h.own _ _)

theorem transport (err : TransportError) : E.holds err.error := by
  cases err with
  | unknownNode nodeID | queueFull target | denied message => exact h.fault _
  | undecodable text => exact E.wrapped _ _ (h.fault text)
  | canceled | deadlineExceeded => exact h.own _ _

variable (record : ReplicaRecord) {n : NodeSlot}

theorem validateForwardSource (req : ForwardWriteRequest) :
    E.Covers (validateForwardSource record req) :=
  .ite (.error (h.own _ _)) (.ite (.ite (.ok _) (.error (h.own _ _))) (.ok _))

theorem reduceHandlePastForward (req : ForwardWriteRequest) :
    E.Covers (reduceHandlePastForward record req) := by
  rw [Storage.reduceHandlePastForward]
  split
  · exact .ite (.ok _) (.error (h.own _ _))
  split
  · exact .ite (.ok _) (.error (h.own _ _))
  · exact .error (h.own _ _)

theorem reduceBufferFutureForward (req : ForwardWriteRequest) (limits : BufferLimits) :
    E.Covers (reduceBufferFutureForward record req limits) := by
  have room : E.Covers (checkBufferLimits record req.operation.slot limits) :=
    .ite (.error (h.backpressure _ _ _ _)) (.ite (.error (h.backpressure _ _ _ _)) (.ok _))
  rw [Storage.reduceBufferFutureForward]
  split
  · exact .ite (.ok _) (.error (h.own _ _))
  · exact room.bind fun _ => .ok _

theorem reduceForwardWrite (req : ForwardWriteRequest) (limits : BufferLimits) :
    E.Covers (reduceForwardWrite record req limits) := by
  refine (h.validateForwardSource record req).bind fun _ => .ite ?_ (.ite ?_ (.ok _))
  · exact (h.reduceHandlePastForward record req).bind fun _ => .ok _
  · exact (h.reduceBufferFutureForward record req limits).bind fun _ => .ok _

theorem replicationRecord (n : NodeSlot) : E.Covers n.replicationRecord :=
  .ite (.error (h.own _ _)) (.ite (.error (h.own _ _)) (.ok _))

theorem forwardRefusal {req : ForwardWriteRequest} {err : Error}
    (hrefused : n.forwardRefusal req = some err) : E.holds err := by
  rw [NodeSlot.forwardRefusal] at hrefused
  split at hrefused
  · rename_i cause hrecord
    cases hrefused
    exact h.replicationRecord n err hrecord
  split at hrefused
  · split at hrefused
    · rename_i cause hbuffer
      cases hrefused
      exact h.reduceBufferFutureForward _ req _ err hbuffer
    · cases hrefused
  · split at hrefused
    · rename_i cause hreduce
      cases hrefused
      exact h.reduceForwardWrite _ req _ err hreduce
    · cases hrefused

theorem pipelineAnswers {outcome : Option Error} (houtcome : ∀ cause ∈ outcome, E.holds cause) :
    ∀ err ∈ n.pipelineAnswers outcome, E.holds err := by
  have gone : E.holds n.unknownSlot := h.own _ _
  cases outcome with
  | some cause =>
    rintro err hmem
    rw [List.mem_singleton.mp hmem]
    exact E.wrapped _ _ (houtcome cause rfl)
  | none =>
    rw [NodeSlot.pipelineAnswers]
    split
    · exact List.forall_mem_nil _
    · exact List.forall_mem_cons.mpr ⟨gone, List.forall_mem_singleton.mpr (E.wrapped _ _ gone)⟩

theorem forwardAnswers {P : WriteOperation → Prop} {event : NodeEvent} (holds : n.Holds P E)
    (returned : ∀ index err, event = .callReturned index (some err) → E.holds err) :
    ∀ err ∈ n.forwardAnswers event, E.holds err := by
  cases event with
  | task =>
    intro err hmem
    simp only [NodeSlot.forwardAnswers] at hmem
    split at hmem
    · exact h.forwardRefusal (Option.mem_toList.mp hmem)
    · rename_i cause rest htasks
      exact holds.tasks (.afterPrepare .tail cause) (htasks ▸ List.mem_cons_self) err
        (Option.mem_toList.mp hmem)
    · rename_i index cause rest htasks
      refine h.pipelineAnswers ?_ err hmem
      exact holds.tasks (.afterPrepare (.pipeline index) cause) (htasks ▸ List.mem_cons_self)
    · cases hmem
  | callReturned index outcome =>
    refine h.pipelineAnswers ?_
    rintro cause ⟨⟩
    exact returned index cause rfl
  | _ => exact List.forall_mem_nil _

end ErrorClass.Local

end Craq.Storage
