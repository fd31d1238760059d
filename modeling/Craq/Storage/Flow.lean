import Craq.Lib.Except
import Craq.Lib.Map
import Craq.Storage.Cluster

/-! # Where operations come from

An operation that is prepared, buffered, journaled or on its way was there before the step, or the
step is the one that sequenced it.
-/

namespace Craq.Storage

variable {P : WriteOperation → Prop}

/-! ## Records -/

/-- Every operation the record may still commit or stage satisfies `P`. -/
structure ReplicaRecord.Carries (P : WriteOperation → Prop) (record : ReplicaRecord) : Prop where
  prepared : ∀ (sequence : Nat) (operation : WriteOperation),
    record.preparedEntries[sequence]? = some operation → operation.sequence = sequence ∧ P operation
  buffered : ∀ (sequence : Nat) (req : ForwardWriteRequest),
    record.bufferedForwards[sequence]? = some req → P req.operation

namespace ReplicaRecord.Carries

variable {record next : ReplicaRecord}

theorem congr (h : record.Carries P) (hp : next.preparedEntries = record.preparedEntries)
    (hb : next.bufferedForwards = record.bufferedForwards) : next.Carries P where
  prepared := by rw [hp]; exact h.prepared
  buffered := by rw [hb]; exact h.buffered

theorem of_empty (hp : record.preparedEntries = ∅) (hb : record.bufferedForwards = ∅) :
    record.Carries P where
  prepared := by simp [hp]
  buffered := by simp [hb]

theorem insertPrepared (h : record.Carries P) {operation : WriteOperation} (hop : P operation)
    (hp : next.preparedEntries = record.preparedEntries.insert operation.sequence operation)
    (hb : ∀ (sequence : Nat) (req : ForwardWriteRequest),
      next.bufferedForwards[sequence]? = some req →
        record.bufferedForwards[sequence]? = some req) : next.Carries P where
  prepared := by
    intro sequence held hheld
    rw [hp, Lib.getElem?_insert_ite] at hheld
    split at hheld
    · rename_i heq
      cases hheld
      exact ⟨heq, hop⟩
    · exact h.prepared sequence held hheld
  buffered := fun sequence req hreq => h.buffered sequence req (hb sequence req hreq)

end ReplicaRecord.Carries

theorem reduceRemoveDirtyEntry_preparedEntries (record : ReplicaRecord) (key : String)
    (sequence : Nat) :
    (reduceRemoveDirtyEntry record key sequence).preparedEntries = record.preparedEntries := by
  unfold reduceRemoveDirtyEntry
  dsimp only
  (repeat' split) <;> rfl

theorem reduceRemoveDirtyEntry_bufferedForwards (record : ReplicaRecord) (key : String)
    (sequence : Nat) :
    (reduceRemoveDirtyEntry record key sequence).bufferedForwards = record.bufferedForwards := by
  unfold reduceRemoveDirtyEntry
  dsimp only
  (repeat' split) <;> rfl

theorem reduceApplyCommittedSequence_preparedEntries (record : ReplicaRecord)
    (operation : WriteOperation) (sequence limit : Nat) :
    (reduceApplyCommittedSequence record operation sequence limit).preparedEntries =
      record.preparedEntries := by
  unfold reduceApplyCommittedSequence
  rw [reduceRemoveDirtyEntry_preparedEntries]
  dsimp only
  split <;> rfl

theorem reduceApplyCommittedSequence_bufferedForwards (record : ReplicaRecord)
    (operation : WriteOperation) (sequence limit : Nat) :
    (reduceApplyCommittedSequence record operation sequence limit).bufferedForwards =
      record.bufferedForwards := by
  unfold reduceApplyCommittedSequence
  rw [reduceRemoveDirtyEntry_bufferedForwards]
  dsimp only
  split <;> rfl

variable {record : ReplicaRecord} {req : ForwardWriteRequest}

theorem reduceSubmitWrite_carries {operation : WriteOperation} (h : record.Carries P)
    (hop : P operation) : (reduceSubmitWrite record operation).Carries P :=
  h.insertPrepared hop rfl fun _ _ hreq => hreq

theorem reduceStageForward_carries (h : record.Carries P) (hop : P req.operation) :
    (reduceStageForward record req).Carries P := by
  have erased : ∀ (sequence : Nat) (held : ForwardWriteRequest),
      (record.bufferedForwards.erase req.operation.sequence)[sequence]? = some held →
        record.bufferedForwards[sequence]? = some held := by
    intro sequence held hheld
    rw [Lib.getElem?_erase_ite] at hheld
    split at hheld
    · cases hheld
    · exact hheld
  unfold reduceStageForward
  dsimp only
  split
  · exact ⟨h.prepared, fun sequence held hheld => h.buffered sequence held (erased _ _ hheld)⟩
  · exact h.insertPrepared hop rfl erased

theorem reduceBufferFutureForward_carries {next : ReplicaRecord} {limits : BufferLimits}
    (h : record.Carries P) (hop : P req.operation)
    (hok : reduceBufferFutureForward record req limits = .ok next) : next.Carries P := by
  unfold reduceBufferFutureForward at hok
  split at hok
  · split at hok
    · cases hok
      exact h
    · cases hok
  · obtain ⟨_, _, hnext⟩ := Lib.bind_eq_ok.mp hok
    cases hnext
    refine ⟨h.prepared, ?_⟩
    intro sequence held hheld
    rw [Lib.getElem?_insert_ite] at hheld
    split at hheld
    · cases hheld
      exact hop
    · exact h.buffered sequence held hheld

theorem reduceForwardWrite_carries {limits : BufferLimits} {reduction : Reduction}
    (h : record.Carries P) (hop : P req.operation)
    (hok : reduceForwardWrite record req limits = .ok reduction) : reduction.record.Carries P := by
  unfold reduceForwardWrite at hok
  obtain ⟨_, _, hok⟩ := Lib.bind_eq_ok.mp hok
  split at hok
  · obtain ⟨_, _, hok⟩ := Lib.bind_eq_ok.mp hok
    cases hok
    exact h
  · split at hok
    · obtain ⟨next, hnext, hok⟩ := Lib.bind_eq_ok.mp hok
      cases hok
      exact reduceBufferFutureForward_carries h hop hnext
    · cases hok
      exact reduceStageForward_carries h hop

theorem recordPruneMaterializedOverlay_carries (highest : Nat) (h : record.Carries P) :
    (recordPruneMaterializedOverlay record highest).Carries P where
  prepared := by
    intro sequence operation hop
    have : record.preparedEntries[sequence]? = some operation := by
      simp only [recordPruneMaterializedOverlay, Std.ExtTreeMap.getElem?_filter'] at hop
      exact (Option.filter_eq_some_iff.mp hop).1
    exact h.prepared sequence operation this
  buffered := h.buffered

theorem commitNext_maps {limit : Nat} {progress next : NodeSlot.CommitProgress}
    (h : NodeSlot.commitNext limit progress = some next) :
    next.record.preparedEntries = progress.record.preparedEntries ∧
      next.record.bufferedForwards = progress.record.bufferedForwards := by
  unfold NodeSlot.commitNext at h
  dsimp only at h
  split at h
  · cases h
  · cases h
    dsimp only [recordWithCommittedOverlay]
    split
    · exact ⟨reduceApplyCommittedSequence_preparedEntries ..,
        reduceApplyCommittedSequence_bufferedForwards ..⟩
    · exact ⟨reduceApplyCommittedSequence_preparedEntries ..,
        reduceApplyCommittedSequence_bufferedForwards ..⟩

theorem foldl_reduceAddDirtyEntry_eq (operations : List WriteOperation) (record : ReplicaRecord) :
    operations.foldl reduceAddDirtyEntry record =
      { record with dirtyByKey := (operations.foldl reduceAddDirtyEntry record).dirtyByKey } := by
  induction operations generalizing record with
  | nil => rfl
  | cons operation operations ih => exact ih (reduceAddDirtyEntry record operation)

theorem reduceSyncedPredecessorState_carries (highest : Nat) (h : record.Carries P) :
    (NodeSlot.reduceSyncedPredecessorState record highest).Carries P := by
  rw [NodeSlot.reduceSyncedPredecessorState, NodeSlot.rebuildDirtyEntries,
    foldl_reduceAddDirtyEntry_eq]
  refine ⟨h.prepared, ?_⟩
  intro sequence req hreq
  rw [Std.ExtTreeMap.getElem?_filter'] at hreq
  exact h.buffered sequence req (Option.filter_eq_some_iff.mp hreq).1

theorem retargetForwards_operation {forwards : SequenceMap ForwardWriteRequest} {sequence : Nat}
    (h : (NodeSlot.retargetForwards record forwards)[sequence]? = some req) :
    ∃ held, forwards[sequence]? = some held ∧ held.operation = req.operation := by
  unfold NodeSlot.retargetForwards at h
  rw [Std.ExtTreeMap.getElem?_map, Std.ExtTreeMap.getElem?_filter'] at h
  obtain ⟨held, hheld, heq⟩ := Option.map_eq_some_iff.mp h
  refine ⟨held, (Option.filter_eq_some_iff.mp hheld).1, ?_⟩
  rw [← heq]
  split <;> rfl

theorem followPredecessor_carries (old : ReplicaAssignment) (h : record.Carries P) :
    (NodeSlot.followPredecessor old record).Carries P := by
  unfold NodeSlot.followPredecessor
  split
  · refine ⟨h.prepared, ?_⟩
    intro sequence req hreq
    obtain ⟨held, hheld, heq⟩ := retargetForwards_operation hreq
    exact heq ▸ h.buffered sequence held hheld
  · exact h

theorem followSuccessor_carries (old : ReplicaAssignment) (h : record.Carries P) :
    (NodeSlot.followSuccessor old record).Carries P := by
  unfold NodeSlot.followSuccessor
  dsimp only
  repeat' split
  · exact h
  · exact ⟨h.prepared, h.buffered⟩
  · exact ⟨h.prepared, h.buffered⟩

theorem reassigned_carries (assignment : ReplicaAssignment) (h : record.Carries P) :
    (NodeSlot.reassigned record assignment).Carries P :=
  followSuccessor_carries _ (followPredecessor_carries _ ⟨h.prepared, h.buffered⟩)

/-! ## The journal -/

def JournalEntry.Carries (P : WriteOperation → Prop) : JournalEntry → Prop
  | .prepare operation => P operation
  | .legacyCommit operation _ => P operation
  | _ => True

theorem replayEntry_carries {entry : JournalEntry} (h : record.Carries P) (hentry : entry.Carries P) :
    (replayEntry record entry).Carries P := by
  cases entry with
  | prepare operation | legacyCommit operation _ =>
    exact h.insertPrepared hentry rfl fun _ _ hreq => hreq
  | upstreamConfirm sequence => exact ⟨h.prepared, h.buffered⟩
  | commitWatermark sequence | headCommitRange sequence =>
    simp only [replayEntry]
    split
    · exact ⟨h.prepared, h.buffered⟩
    · exact h

theorem replayJournal_carries {journal : List JournalRecord} (h : record.Carries P)
    (hjournal : ∀ entry ∈ journal, entry.entry.Carries P) :
    (journal.foldl replayJournalRecord record).Carries P := by
  induction journal generalizing record with
  | nil => exact h
  | cons entry journal ih =>
    have replayed : (replayJournalRecord record entry).Carries P := by
      unfold replayJournalRecord
      split
      · exact h
      · have := replayEntry_carries h (hjournal entry List.mem_cons_self)
        exact ⟨this.prepared, this.buffered⟩
    exact ih replayed fun entry hentry => hjournal entry (List.mem_cons_of_mem _ hentry)

theorem foldl_recordWithCommittedOverlay_eq (operations : List WriteOperation)
    (record : ReplicaRecord) :
    operations.foldl recordWithCommittedOverlay record = { record with
      committedOverlay :=
        (operations.foldl recordWithCommittedOverlay record).committedOverlay } := by
  induction operations generalizing record with
  | nil => rfl
  | cons operation operations ih => exact ih (recordWithCommittedOverlay record operation)

theorem openReplica_carries (persisted : PersistedReplica) (backend : Option ReplicaData)
    {journal : List JournalRecord} (hjournal : ∀ entry ∈ journal, entry.entry.Carries P) :
    (openReplica persisted backend journal).record.Carries P := by
  have start : (persistedRecord persisted backend).Carries P := by
    unfold persistedRecord
    cases backend <;> constructor <;> simp
  have replayed := replayJournal_carries start hjournal
  have committed : (commitPreparedTail
      (journal.foldl replayJournalRecord (persistedRecord persisted backend))).Carries P := by
    unfold commitPreparedTail
    split
    · exact ⟨replayed.prepared, replayed.buffered⟩
    · exact replayed
  rw [openReplica, recoverJournaledReplicaState, foldl_recordWithCommittedOverlay_eq]
  exact ⟨committed.prepared, committed.buffered⟩

/-! ## What reconciling with the journal leaves to do -/

variable (n : NodeSlot)

theorem NodeSlot.reconcileDurableCommitProgress_cases :
    n.reconcileDurableCommitProgress = none ∨
      n.reconcileDurableCommitProgress = some (n.clearCommitEffect, []) ∨
      ∃ sequence,
        n.reconcileDurableCommitProgress = some (n, [.applyCommitWatermark sequence]) := by
  unfold NodeSlot.reconcileDurableCommitProgress
  dsimp only
  split
  · exact .inl rfl
  split
  · exact .inr (.inl rfl)
  · exact .inr (.inr ⟨_, rfl⟩)

theorem NodeSlot.reconcileThen_cases (rest : List Task) :
    n.reconcileThen rest = n.andThen rest ∨
      n.reconcileThen rest = n.clearCommitEffect.andThen rest ∨
      ∃ sequence, n.reconcileThen rest = n.andThen (.applyCommitWatermark sequence :: rest) := by
  unfold NodeSlot.reconcileThen
  rcases n.reconcileDurableCommitProgress_cases with h | h | ⟨sequence, h⟩
  · exact .inl (by rw [h])
  · exact .inr (.inl (by rw [h]; rfl))
  · exact .inr (.inr ⟨sequence, by rw [h]; rfl⟩)

/-! ## What a client write does -/

/-- A write the owner does not sequence changes no more than the metadata cache. -/
def NodeSlot.LookedUp (n : NodeSlot) (key : String) (next : NodeSlot) : Prop :=
  next = n ∨ ∃ current, n.committedMetadataState key = .ok current ∧
    next = n.rememberLookup key current

/-- A write the owner sequences: the replica serves writes and the conditions hold. -/
structure NodeSlot.Accepts (n : NodeSlot) (req : SubmitRequest) (current : Option ObjectMetadata) :
    Prop where
  active : n.activeRecord = .ok n.record
  role : n.record.assignment.role = .head ∨ n.record.assignment.role = .single
  lookup : n.committedMetadataState req.key = .ok current
  conditions : conditionsHold req.conditions current = true
  found : req.kind = .delete → current ≠ none
  admitted : n.tryAdmitNodeClientWrite n.record.inFlightClientWrites = .ok ()

theorem NodeSlot.activeRecord_eq {n : NodeSlot} (h : n.activeRecord = .ok record) :
    record = n.record := by
  unfold NodeSlot.activeRecord at h
  simp only [Lib.ite_error_eq_ok] at h
  exact (Except.ok.inj h.2.2.2).symm

theorem NodeSlot.replicationRecord_eq {n : NodeSlot} (h : n.replicationRecord = .ok record) :
    record = n.record := by
  unfold NodeSlot.replicationRecord at h
  simp only [Lib.ite_error_eq_ok] at h
  exact (Except.ok.inj h.2.2).symm

theorem NodeSlot.handleSubmitWrite_cases (req : SubmitRequest) :
    (∃ next response, n.LookedUp req.key next ∧ n.handleSubmitWrite req = (next, response) ∧
        ∀ result, response ≠ .waiting result) ∨
      ∃ current, n.Accepts req current ∧
        n.handleSubmitWrite req =
          ((n.rememberLookup req.key current).acceptWrite n.record req
              (n.submittedOperation n.record req current),
            .waiting (submittedResult (n.submittedOperation n.record req current))) := by
  unfold NodeSlot.handleSubmitWrite
  split
  · exact .inl ⟨n, _, .inl rfl, rfl, by simp⟩
  rename_i record hactive
  obtain rfl := NodeSlot.activeRecord_eq hactive
  split
  · exact .inl ⟨n, _, .inl rfl, rfl, by simp⟩
  rename_i hrole
  split
  · exact .inl ⟨n, _, .inl rfl, rfl, by simp⟩
  rename_i current hlookup
  have looked : n.LookedUp req.key (n.rememberLookup req.key current) :=
    .inr ⟨current, hlookup, rfl⟩
  split
  · exact .inl ⟨_, _, looked, rfl, by simp⟩
  rename_i hconditions
  dsimp only
  split
  · exact .inl ⟨_, _, looked, rfl, by simp⟩
  rename_i hfound
  split
  · exact .inl ⟨_, _, looked, rfl, by simp⟩
  rename_i hadmitted
  refine .inr ⟨current, ⟨hactive, ?_, hlookup, ?_, ?_, hadmitted⟩, rfl⟩
  · by_contra hnot
    exact hrole (not_or.mp hnot)
  · unfold evaluateWriteConditions at hconditions
    by_contra hnot
    rw [if_neg hnot] at hconditions
    cases hconditions
  · intro hdelete hnone
    exact hfound ⟨hdelete, hnone⟩

theorem NodeSlot.submitWrite_cases (req : SubmitRequest) :
    (∃ next waiter, n.LookedUp req.key next ∧ waiter.operation = none ∧
        n.submitWrite req = { next with waiters := next.waiters.insert req.call waiter }) ∨
      ∃ current, n.Accepts req current ∧
        n.submitWrite req = (n.rememberLookup req.key current).acceptWrite n.record req
          (n.submittedOperation n.record req current) := by
  unfold NodeSlot.submitWrite
  rcases n.handleSubmitWrite_cases req with ⟨next, response, looked, heq, hresponse⟩ | h
  · rw [heq]
    cases response with
    | rejected err =>
      exact .inl ⟨next, { conditions := req.conditions, outcome := some (some err) }, looked, rfl,
        rfl⟩
    | unchanged result =>
      exact .inl ⟨next, { conditions := req.conditions, result, outcome := some none }, looked, rfl,
        rfl⟩
    | waiting result => exact absurd rfl (hresponse result)
  · obtain ⟨current, accepts, heq⟩ := h
    rw [heq]
    exact .inr ⟨current, accepts, rfl⟩

/-! ## Nodes -/

/-- Errors that stay in the class when context is added. -/
structure ErrorClass where
  holds : Error → Prop
  wrapped : ∀ context err, holds err → holds (.wrapped context err)

/-- The class has every error a node makes by itself. -/
def ErrorClass.Own (E : ErrorClass) : Prop :=
  ∀ sentinel detail, E.holds (.sentinel sentinel detail)

def ErrorClass.any : ErrorClass where
  holds := fun _ => True
  wrapped := fun _ _ _ => trivial

def Task.Holds (P : WriteOperation → Prop) (E : ErrorClass) : Task → Prop
  | .submitCommitWatermarkReady record => record.Carries P
  | .gapRepaired record => record.Carries P
  | .advanceAfterGapCheck record => record.Carries P
  | .forwardWrite req => P req.operation
  | .afterPrepare _ err => ∀ cause ∈ err, E.holds cause
  | _ => True

def Message.Carries (P : WriteOperation → Prop) : Message → Prop
  | .forward _ req => P req.operation
  | .commitAdvance _ _ => True

def Completion.Holds (E : ErrorClass) : Completion → Prop
  | .prepared _ _ err => ∀ cause ∈ err, E.holds cause
  | _ => True

/-- The client of a write that was sequenced is told no error but one of the class. -/
def Waiter.Holds (E : ErrorClass) (waiter : Waiter) : Prop :=
  ∀ err, waiter.outcome = some (some err) → waiter.operation = none ∨ E.holds err

/-- Every operation the node may still commit, stage, journal or send satisfies `P`, and every error
on its way to the client of a write that was sequenced is in the class. -/
structure NodeSlot.Holds (P : WriteOperation → Prop) (E : ErrorClass) (n : NodeSlot) : Prop where
  record : n.record.Carries P
  tasks : ∀ task ∈ n.tasks, task.Holds P E
  pipelines : ∀ pipeline ∈ n.pipelines, P pipeline.operation
  prepares : ∀ intent ∈ n.prepares, P intent.prepare.operation
  journal : ∀ entry ∈ n.journal, entry.entry.Carries P
  outbox : ∀ message ∈ n.outbox, message.Carries P
  completions : ∀ completion ∈ n.completions, completion.Holds E
  waiters : ∀ (call : Nat) (waiter : Waiter), n.waiters[call]? = some waiter → waiter.Holds E

/-- What an event may bring to a node: a write it sequences satisfies `P`, and the errors the client
of a sequenced write would be told are in the class. -/
structure NodeSlot.Admits (P : WriteOperation → Prop) (E : ErrorClass) (n : NodeSlot)
    (event : NodeEvent) : Prop where
  operation : ∀ req current, event = .submitWrite req → n.Accepts req current →
    P (n.submittedOperation n.record req current)
  successor : ∀ req current, event = .submitWrite req → n.Accepts req current →
    n.record.assignment.role = .head → n.record.assignment.peers.successorNodeID = "" →
      E.Own
  flushed : ∀ err, event = .flushPrepare (some err) → E.holds err
  forwarded : ∀ index err pipeline assignment, event = .callReturned index err →
    n.calls[index]? = some (.forward pipeline assignment) →
      (∀ cause ∈ err, E.holds cause) ∧ (n.runtime.present = false → E.Own)
  prepared : ∀ after err rest, event = .task → n.tasks = .afterPrepare after err :: rest →
    n.runtime.present = false → E.Own

/-- In a class with the node's own errors, only those that come from outside matter. -/
theorem NodeSlot.Admits.of_own {P : WriteOperation → Prop} {E : ErrorClass} {n : NodeSlot}
    {event : NodeEvent} (own : E.Own)
    (operation : ∀ req current, event = .submitWrite req → n.Accepts req current →
      P (n.submittedOperation n.record req current))
    (flushed : ∀ err, event = .flushPrepare (some err) → E.holds err)
    (returned : ∀ index err, event = .callReturned index (some err) → E.holds err) :
    n.Admits P E event where
  operation := operation
  successor := fun _ _ _ _ _ _ => own
  flushed := flushed
  forwarded := by
    intro index err pipeline assignment hevent _
    refine ⟨?_, fun _ => own⟩
    rintro cause rfl
    exact returned index cause hevent
  prepared := fun _ _ _ _ _ _ => own

end Craq.Storage
