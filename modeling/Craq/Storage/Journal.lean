import Craq.Storage.Reducer

/-! # The backend and the journal of a slot

A prepared operation is durable once its journal record is appended.  Committed operations reach
the backend later, in order, through the materializer.  `openReplica` rebuilds a replica record
from what a node persisted.
-/

namespace Craq.Storage

/-! ## The in-memory backend -/

structure ReplicaData where
  committed : Snapshot := ∅
  highestCommitted : Nat := 0
  highestUpstreamConfirmed : Nat := 0
deriving DecidableEq

structure DurableCommit where
  operation : WriteOperation
  persisted : PersistedReplica
  upstreamConfirmedSequence : Nat := 0
deriving DecidableEq, Repr

def ReplicaData.installSnapshot (data : ReplicaData) (snapshot : Snapshot) : ReplicaData :=
  { data with committed := snapshot }

def ReplicaData.setHighestCommittedSequence (data : ReplicaData) (sequence : Nat) : ReplicaData :=
  { data with highestCommitted := sequence, highestUpstreamConfirmed := sequence }

def commitSequenceMismatch (slot expected got : Nat) : Error :=
  .sentinel .sequenceMismatch s!"slot {slot} expected commit sequence {expected}, got {got}"

def ReplicaData.applyCommitted (data : ReplicaData) (commit : DurableCommit) :
    Except Error ReplicaData :=
  if commit.operation.sequence ≠ data.highestCommitted + 1 then
    .error (commitSequenceMismatch commit.operation.slot (data.highestCommitted + 1)
      commit.operation.sequence)
  else .ok
    { committed := data.committed.applyOperation commit.operation
      highestCommitted := commit.operation.sequence
      highestUpstreamConfirmed := commit.upstreamConfirmedSequence }

-- The commits before a failing one stay applied.
def ReplicaData.applyCommittedBatch (data : ReplicaData) :
    List DurableCommit → ReplicaData × Option Error
  | [] => (data, none)
  | commit :: commits =>
    match data.applyCommitted commit with
    | .ok data => data.applyCommittedBatch commits
    | .error err => (data, some err)

def filterMaterializedCommits (highestCommitted : Nat) :
    List DurableCommit → Except Error (List DurableCommit)
  | [] => .ok []
  | commit :: commits =>
    if commit.operation.sequence ≤ highestCommitted then
      filterMaterializedCommits highestCommitted commits
    else if commit.operation.sequence ≠ highestCommitted + 1 then
      .error (commitSequenceMismatch commit.operation.slot (highestCommitted + 1)
        commit.operation.sequence)
    else
      (filterMaterializedCommits commit.operation.sequence commits).map (commit :: ·)

def applyMaterializedBatch (data : ReplicaData) (commits : List DurableCommit) :
    ReplicaData × Option Error :=
  match filterMaterializedCommits data.highestCommitted commits with
  | .ok filtered => data.applyCommittedBatch filtered
  | .error err => (data, some err)

/-! ## Journal records -/

inductive JournalEntry where
  | prepare (operation : WriteOperation)
  | commitWatermark (sequence : Nat)
  | headCommitRange (sequence : Nat)
  | upstreamConfirm (sequence : Nat)
  | legacyCommit (operation : WriteOperation) (upstreamConfirmedSequence : Nat)
deriving DecidableEq, Repr

structure JournalRecord where
  chainVersion : Nat
  entry : JournalEntry
deriving DecidableEq, Repr

def journalRecordFromPrepare (prepare : DurableCommit) : JournalRecord where
  chainVersion := prepare.persisted.assignment.chainVersion
  entry := .prepare prepare.operation

def journalRecordFromHeadCommitRange (assignment : ReplicaAssignment) (sequence : Nat) :
    JournalRecord where
  chainVersion := assignment.chainVersion
  entry := .headCommitRange sequence

def journalRecordFromUpstreamConfirm (assignment : ReplicaAssignment) (sequence : Nat) :
    JournalRecord where
  chainVersion := assignment.chainVersion
  entry := .upstreamConfirm sequence

/-! ## Reopening a replica -/

def replayEntry (record : ReplicaRecord) : JournalEntry → ReplicaRecord
  | .upstreamConfirm sequence =>
    { record with
      highestUpstreamConfirmedSequence := max record.highestUpstreamConfirmedSequence sequence }
  | .prepare operation =>
    { record with
      highestPreparedDurable := max record.highestPreparedDurable operation.sequence
      preparedEntries := record.preparedEntries.insert operation.sequence operation
      nextSequence := max record.nextSequence (operation.sequence + 1) }
  | .commitWatermark sequence | .headCommitRange sequence =>
    if sequence > record.highestCommittedSequence then
      { record with highestCommittedSequence := sequence, localDataPresent := true }
    else record
  | .legacyCommit operation upstreamConfirmedSequence =>
    { record with
      highestPreparedDurable := max record.highestPreparedDurable operation.sequence
      preparedEntries := record.preparedEntries.insert operation.sequence operation
      highestCommittedSequence := max record.highestCommittedSequence operation.sequence
      localDataPresent :=
        record.localDataPresent || decide (operation.sequence > record.highestCommittedSequence)
      highestUpstreamConfirmedSequence :=
        max record.highestUpstreamConfirmedSequence upstreamConfirmedSequence }

def replayJournalRecord (record : ReplicaRecord) (entry : JournalRecord) : ReplicaRecord :=
  if entry.chainVersion ≠ record.assignment.chainVersion then record
  else
    let replayed := replayEntry record entry.entry
    { replayed with
      highestUpstreamConfirmedSequence := normalizeUpstreamConfirmedSequence replayed }

/-- The last of the consecutive sequences after `committed` that have a prepared entry; no more
than `bound` of them are looked at. -/
def lastConsecutivePrepared (entries : SequenceMap WriteOperation) : Nat → Nat → Nat
  | 0, committed => committed
  | bound + 1, committed =>
    if entries.contains (committed + 1) then lastConsecutivePrepared entries bound (committed + 1)
    else committed

theorem le_lastConsecutivePrepared (entries : SequenceMap WriteOperation) (bound committed : Nat) :
    committed ≤ lastConsecutivePrepared entries bound committed := by
  induction bound generalizing committed with
  | zero => exact le_rfl
  | succ bound ih =>
    rw [lastConsecutivePrepared]
    split
    · exact (Nat.le_succ committed).trans (ih (committed + 1))
    · exact le_rfl

/-- A replica without a successor commits what it has durably prepared without a hole. -/
def commitPreparedTail (record : ReplicaRecord) : ReplicaRecord :=
  if record.assignment.peers.successorNodeID = "" then
    let committed := lastConsecutivePrepared record.preparedEntries record.preparedEntries.size
      record.highestCommittedSequence
    { record with
      highestCommittedSequence := committed
      localDataPresent :=
        record.localDataPresent || decide (committed > record.highestCommittedSequence) }
  else record

/-- The prepared operations of the sequences after `first` up to `last`. -/
def preparedOperations (record : ReplicaRecord) (first last : Nat) : List WriteOperation :=
  (List.range' (first + 1) (last - first)).filterMap (record.preparedEntries[·]?)

structure RecoveredJournal where
  record : ReplicaRecord
  backlog : List DurableCommit
  highWater : Nat

def recoverJournaledReplicaState (journal : List JournalRecord) (record : ReplicaRecord) :
    RecoveredJournal :=
  let replayed := journal.foldl replayJournalRecord record
  let committed := commitPreparedTail replayed
  let operations := preparedOperations committed committed.materializedCommittedSequence
    committed.highestCommittedSequence
  let overlaid := operations.foldl recordWithCommittedOverlay committed
  { record := overlaid
    backlog := operations.map fun operation =>
      { operation, persisted := persistedReplica overlaid }
    highWater := replayed.highestCommittedSequence }

def persistedRecord (persisted : PersistedReplica) (backend : Option ReplicaData) :
    ReplicaRecord :=
  let record : ReplicaRecord :=
    match backend with
    | none =>
      { assignment := persisted.assignment
        state := .recovered
        nextSequence := persisted.highestCommittedSequence + 1
        highestPreparedDurable := persisted.highestCommittedSequence
        highestCommitTokenReceived := persisted.highestCommittedSequence
        highestCommittedSequence := persisted.highestCommittedSequence
        materializedCommittedSequence := 0
        highestUpstreamConfirmedSequence := persisted.highestUpstreamConfirmedSequence
        localDataPresent := false
        lastKnownState := persisted.lastKnownState }
    | some data =>
      { assignment := persisted.assignment
        state := .recovered
        nextSequence := data.highestCommitted + 1
        highestPreparedDurable := data.highestCommitted
        highestCommitTokenReceived := data.highestCommitted
        highestCommittedSequence := data.highestCommitted
        materializedCommittedSequence := data.highestCommitted
        highestUpstreamConfirmedSequence := data.highestUpstreamConfirmed
        localDataPresent := true
        lastKnownState := persisted.lastKnownState }
  { record with highestUpstreamConfirmedSequence := normalizeUpstreamConfirmedSequence record }

def openReplica (persisted : PersistedReplica) (backend : Option ReplicaData)
    (journal : List JournalRecord) : RecoveredJournal :=
  recoverJournaledReplicaState journal (persistedRecord persisted backend)

end Craq.Storage
