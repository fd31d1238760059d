import Craq.Storage.Creation

/-! # Installing a snapshot, call by call

A snapshot replaces the data of a slot, then its sequence, then the record the node would reopen
with.  Between two of these calls the stores of the slot do not fit together, and the journal is
replayed on top of whatever they hold.  Below, the durable side of one slot runs on its own: calls
take effect one by one, the journal grows, committed operations are materialized, and a crash may
come at any point.
-/

namespace Craq.Storage

open Lib (Reaches run)

/-! ## The history of a slot -/

def applyOperations (operations : List WriteOperation) : Snapshot :=
  operations.foldl Snapshot.applyOperation ∅

section History

variable (history : Nat → WriteOperation)

def operationsUpTo (sequence : Nat) : List WriteOperation :=
  (List.range' 1 sequence).map history

def dataUpTo (sequence : Nat) : Snapshot :=
  applyOperations (operationsUpTo history sequence)

theorem dataUpTo_extend {first last : Nat} (h : first ≤ last) :
    ((List.range' (first + 1) (last - first)).map history).foldl Snapshot.applyOperation
      (dataUpTo history first) = dataUpTo history last := by
  have split : List.range' 1 last =
      List.range' 1 first ++ List.range' (first + 1) (last - first) := by
    rw [Nat.add_comm first 1, List.range'_append_1, Nat.add_sub_cancel' h]
  rw [dataUpTo, dataUpTo, operationsUpTo, operationsUpTo, split, List.map_append, applyOperations,
    applyOperations, List.foldl_append]

theorem dataUpTo_succ (sequence : Nat) :
    dataUpTo history (sequence + 1) =
      (dataUpTo history sequence).applyOperation (history (sequence + 1)) := by
  have extended := dataUpTo_extend history (Nat.le_succ sequence)
  rw [Nat.succ_eq_add_one, Nat.add_sub_cancel_left] at extended
  exact extended.symm

end History

/-! ## What a journal holds under a chain version -/

def JournalRecord.prepared? (record : JournalRecord) (chainVersion : Nat) : Option WriteOperation :=
  if record.chainVersion ≠ chainVersion then none
  else
    match record.entry with
    | .prepare operation | .legacyCommit operation _ => some operation
    | _ => none

def JournalRecord.commits (record : JournalRecord) (chainVersion : Nat) : Nat :=
  if record.chainVersion ≠ chainVersion then 0
  else
    match record.entry with
    | .commitWatermark sequence | .headCommitRange sequence => sequence
    | .legacyCommit operation _ => operation.sequence
    | _ => 0

/-- The operation that was prepared last for the sequence. -/
def preparedUnder (chainVersion : Nat) (journal : List JournalRecord) (sequence : Nat) :
    Option WriteOperation :=
  journal.foldl (fun held record =>
    match record.prepared? chainVersion with
    | some operation => if operation.sequence = sequence then some operation else held
    | none => held) none

def committedUnder (chainVersion : Nat) (journal : List JournalRecord) : Nat :=
  journal.foldl (fun highest record => max highest (record.commits chainVersion)) 0

theorem preparedUnder_concat (chainVersion : Nat) (journal : List JournalRecord)
    (record : JournalRecord) (sequence : Nat) :
    preparedUnder chainVersion (journal ++ [record]) sequence =
      match record.prepared? chainVersion with
      | some operation =>
        if operation.sequence = sequence then some operation
        else preparedUnder chainVersion journal sequence
      | none => preparedUnder chainVersion journal sequence := by
  simp [preparedUnder]

theorem committedUnder_concat (chainVersion : Nat) (journal : List JournalRecord)
    (record : JournalRecord) :
    committedUnder chainVersion (journal ++ [record]) =
      max (committedUnder chainVersion journal) (record.commits chainVersion) := by
  simp [committedUnder]

theorem replayJournalRecord_spec (record : ReplicaRecord) (entry : JournalRecord) :
    (∀ sequence, (replayJournalRecord record entry).preparedEntries[sequence]? =
      match entry.prepared? record.assignment.chainVersion with
      | some operation =>
        if operation.sequence = sequence then some operation
        else record.preparedEntries[sequence]?
      | none => record.preparedEntries[sequence]?) ∧
    (replayJournalRecord record entry).highestCommittedSequence =
      max record.highestCommittedSequence (entry.commits record.assignment.chainVersion) ∧
    (replayJournalRecord record entry).assignment = record.assignment ∧
    (replayJournalRecord record entry).materializedCommittedSequence =
      record.materializedCommittedSequence := by
  rw [replayJournalRecord, JournalRecord.prepared?, JournalRecord.commits]
  split
  · exact ⟨fun _ => rfl, (Nat.max_zero _).symm, rfl, rfl⟩
  have raised (sequence : Nat) :
      (if sequence > record.highestCommittedSequence then
        { record with highestCommittedSequence := sequence, localDataPresent := true }
        else record).highestCommittedSequence = max record.highestCommittedSequence sequence := by
    split
    · exact (Nat.max_eq_right (Nat.le_of_lt ‹_›)).symm
    · exact (Nat.max_eq_left (Nat.le_of_not_lt ‹_›)).symm
  cases entry.entry with
  | upstreamConfirm sequence => exact ⟨fun _ => rfl, (Nat.max_zero _).symm, rfl, rfl⟩
  | prepare operation =>
    exact ⟨fun _ => Lib.getElem?_insert_ite .., (Nat.max_zero _).symm, rfl, rfl⟩
  | legacyCommit operation confirmed => exact ⟨fun _ => Lib.getElem?_insert_ite .., rfl, rfl, rfl⟩
  | commitWatermark sequence | headCommitRange sequence =>
    refine ⟨?_, raised sequence, ?_, ?_⟩
    · intro _
      rw [replayEntry]
      split <;> rfl
    · rw [replayEntry]
      split <;> rfl
    · rw [replayEntry]
      split <;> rfl

/-- What a replica record holds once the journal has been replayed on it. -/
structure ReplicaRecord.Replayed (record : ReplicaRecord) (assignment : ReplicaAssignment)
    (materialized : Nat) (journal : List JournalRecord) : Prop where
  prepared : ∀ sequence, record.preparedEntries[sequence]? =
    preparedUnder assignment.chainVersion journal sequence
  committed : record.highestCommittedSequence =
    max materialized (committedUnder assignment.chainVersion journal)
  assignment : record.assignment = assignment
  materialized : record.materializedCommittedSequence = materialized

theorem replayed_journal (stored : PersistedReplica) (data : ReplicaData)
    (journal : List JournalRecord) :
    (journal.foldl replayJournalRecord (persistedRecord stored (some data))).Replayed
      stored.assignment data.highestCommitted journal := by
  induction journal using List.reverseRecOn with
  | nil =>
    refine ⟨?_, (Nat.max_zero _).symm, rfl, rfl⟩
    intro sequence
    exact Std.ExtTreeMap.getElem?_empty
  | append_singleton journal entry ih =>
    rw [List.foldl_append]
    have ⟨prepared, committed, assignment, materialized⟩ := replayJournalRecord_spec
      (journal.foldl replayJournalRecord (persistedRecord stored (some data))) entry
    rw [ih.assignment] at prepared committed
    refine ⟨?_, ?_, assignment.trans ih.assignment, materialized.trans ih.materialized⟩
    · intro sequence
      rw [preparedUnder_concat, ← ih.prepared]
      exact prepared sequence
    · rw [committedUnder_concat, ← Nat.max_assoc, ← ih.committed]
      exact committed

/-! ## Reopening a slot whose stores fit together -/

/-- The journal agrees with the history after what is materialized: whatever it commits under the
chain version of the assignment it has prepared, and as the history has it.  A replica without a
successor commits all it has prepared. -/
structure Agrees (history : Nat → WriteOperation) (materialized : Nat)
    (assignment : ReplicaAssignment) (journal : List JournalRecord) : Prop where
  kept : ∀ sequence operation, materialized < sequence →
    preparedUnder assignment.chainVersion journal sequence = some operation →
      assignment.peers.successorNodeID = "" ∨
        sequence ≤ committedUnder assignment.chainVersion journal →
      operation = history sequence
  whole : ∀ sequence, materialized < sequence →
    sequence ≤ committedUnder assignment.chainVersion journal →
      preparedUnder assignment.chainVersion journal sequence ≠ none

theorem contains_of_le_lastConsecutivePrepared {entries : SequenceMap WriteOperation}
    {bound committed sequence : Nat} (hafter : committed < sequence)
    (hle : sequence ≤ lastConsecutivePrepared entries bound committed) :
    entries.contains sequence = true := by
  induction bound generalizing committed with
  | zero => exact absurd hle (Nat.not_le.mpr hafter)
  | succ bound ih =>
    rw [lastConsecutivePrepared] at hle
    split at hle
    · rcases Nat.eq_or_lt_of_le hafter with heq | hlater
      · rw [← heq]
        assumption
      · exact ih hlater hle
    · exact absurd hle (Nat.not_le.mpr hafter)

theorem Agrees.committed {history : Nat → WriteOperation} {materialized : Nat}
    {assignment : ReplicaAssignment} {journal : List JournalRecord} {record : ReplicaRecord}
    (h : Agrees history materialized assignment journal)
    (replayed : record.Replayed assignment materialized journal) {sequence : Nat}
    (hafter : materialized < sequence)
    (hle : sequence ≤ (commitPreparedTail record).highestCommittedSequence) :
    (commitPreparedTail record).preparedEntries[sequence]? = some (history sequence) := by
  have entries : (commitPreparedTail record).preparedEntries[sequence]? =
      preparedUnder assignment.chainVersion journal sequence := by
    rw [← replayed.prepared, commitPreparedTail]
    split <;> rfl
  have found : ∃ operation, preparedUnder assignment.chainVersion journal sequence =
      some operation ∧ (assignment.peers.successorNodeID = "" ∨
        sequence ≤ committedUnder assignment.chainVersion journal) := by
    by_cases hmarked : sequence ≤ committedUnder assignment.chainVersion journal
    · obtain ⟨operation, hoperation⟩ := Option.ne_none_iff_exists'.mp (h.whole _ hafter hmarked)
      exact ⟨operation, hoperation, .inr hmarked⟩
    · -- Only a replica without a successor commits beyond its marks.
      have beyond : record.highestCommittedSequence < sequence := by
        rw [replayed.committed]
        omega
      rw [commitPreparedTail, replayed.assignment] at hle
      split at hle
      · rename_i htail
        have held := contains_of_le_lastConsecutivePrepared beyond hle
        obtain ⟨operation, hoperation⟩ := Option.isSome_iff_exists.mp
          (Std.ExtTreeMap.isSome_getElem?_iff_mem.mpr held)
        exact ⟨operation, (replayed.prepared sequence).symm.trans hoperation, .inl htail⟩
      · exact absurd hle (Nat.not_le.mpr beyond)
  obtain ⟨operation, hoperation, hcovered⟩ := found
  rw [entries, hoperation, h.kept sequence operation hafter hoperation hcovered]

/-- What a node that is opened again has of the slot: the data of the backend with the operations
replayed from the journal is what the history has up to the sequence the record reports. -/
def SlotStores.Reopens (history : Nat → WriteOperation) (stores : SlotStores)
    (journal : List JournalRecord) : Prop :=
  ∀ stored ∈ stores.localState, ∀ data ∈ stores.backend,
    let opened := openReplica stored (some data) journal
    (opened.backlog.map (·.operation)).foldl Snapshot.applyOperation data.committed =
      dataUpTo history opened.record.highestCommittedSequence

/-- The stores of a slot fit together, and the journal goes on from them. -/
def SlotStores.Sound (history : Nat → WriteOperation) (stores : SlotStores)
    (journal : List JournalRecord) : Prop :=
  ∀ stored ∈ stores.localState, ∀ data ∈ stores.backend,
    data.committed = dataUpTo history data.highestCommitted ∧
      Agrees history data.highestCommitted stored.assignment journal

theorem SlotStores.Sound.reopens {history : Nat → WriteOperation} {stores : SlotStores}
    {journal : List JournalRecord} (h : stores.Sound history journal) :
    stores.Reopens history journal := by
  intro stored hstored data hdata
  obtain ⟨hcommitted, agrees⟩ := h stored hstored data hdata
  have replayed := replayed_journal stored data journal
  simp only [openReplica, recoverJournaledReplicaState]
  generalize journal.foldl replayJournalRecord (persistedRecord stored (some data)) = record
    at replayed
  have hmaterialized : (commitPreparedTail record).materializedCommittedSequence =
      data.highestCommitted := by
    rw [← replayed.materialized, commitPreparedTail]
    split <;> rfl
  have grown : data.highestCommitted ≤ (commitPreparedTail record).highestCommittedSequence := by
    have marked : data.highestCommitted ≤ record.highestCommittedSequence :=
      (le_max_left _ _).trans replayed.committed.ge
    rw [commitPreparedTail]
    split
    · exact marked.trans (le_lastConsecutivePrepared _ _ _)
    · exact marked
  have operations : preparedOperations (commitPreparedTail record) data.highestCommitted
      (commitPreparedTail record).highestCommittedSequence =
        (List.range' (data.highestCommitted + 1)
          ((commitPreparedTail record).highestCommittedSequence - data.highestCommitted)).map
            history := by
    rw [preparedOperations, ← List.filterMap_eq_map]
    apply List.filterMap_congr
    intro sequence hmem
    obtain ⟨hfirst, hlast⟩ := List.mem_range'_1.mp hmem
    exact agrees.committed replayed (by omega) (by omega)
  rw [hmaterialized, operations, List.map_map, foldl_recordWithCommittedOverlay_eq, hcommitted]
  refine Eq.trans ?_ (dataUpTo_extend history grown)
  congr 1
  exact List.map_id _

/-! ### What keeps the journal in agreement -/

section Agreement

variable {history : Nat → WriteOperation} {materialized : Nat} {assignment : ReplicaAssignment}
  {journal : List JournalRecord}

/-- What the journal may take under the chain version of the assignment: a prepare is of the
history once it counts as committed, and a mark covers only what was prepared of the history. -/
def Fits (history : Nat → WriteOperation) (materialized : Nat) (assignment : ReplicaAssignment)
    (journal : List JournalRecord) : JournalEntry → Prop
  | .prepare operation =>
    assignment.peers.successorNodeID = "" ∨
        operation.sequence ≤ committedUnder assignment.chainVersion journal →
      operation = history operation.sequence
  | .commitWatermark sequence | .headCommitRange sequence =>
    ∀ earlier, materialized < earlier → earlier ≤ sequence →
      preparedUnder assignment.chainVersion journal earlier = some (history earlier)
  | .legacyCommit operation _ =>
    operation = history operation.sequence ∧
      ∀ earlier, materialized < earlier → earlier < operation.sequence →
        preparedUnder assignment.chainVersion journal earlier = some (history earlier)
  | .upstreamConfirm _ => True

theorem Agrees.mono {later : Nat} (h : Agrees history materialized assignment journal)
    (hle : materialized ≤ later) : Agrees history later assignment journal :=
  ⟨fun sequence operation hafter => h.kept sequence operation (hle.trans_lt hafter),
    fun sequence hafter => h.whole sequence (hle.trans_lt hafter)⟩

theorem Agrees.empty : Agrees history materialized assignment [] := by
  refine ⟨nofun, ?_⟩
  intro sequence hafter hle
  exact absurd (hafter.trans_le hle) (Nat.not_lt_zero _)

variable {record : JournalRecord}

variable (h : Agrees history materialized assignment journal)

include h

theorem Agrees.append_other (hother : record.chainVersion ≠ assignment.chainVersion) :
    Agrees history materialized assignment (journal ++ [record]) := by
  have prepared (sequence : Nat) :
      preparedUnder assignment.chainVersion (journal ++ [record]) sequence =
        preparedUnder assignment.chainVersion journal sequence := by
    rw [preparedUnder_concat, JournalRecord.prepared?, if_pos hother]
  have committed : committedUnder assignment.chainVersion (journal ++ [record]) =
      committedUnder assignment.chainVersion journal := by
    rw [committedUnder_concat, JournalRecord.commits, if_pos hother, Nat.max_zero]
  constructor
  · intro sequence operation hafter
    rw [prepared, committed]
    exact h.kept sequence operation hafter
  · intro sequence hafter
    rw [prepared, committed]
    exact h.whole sequence hafter

theorem Agrees.append_of
    (hprepares : ∀ operation, record.prepared? assignment.chainVersion = some operation →
      assignment.peers.successorNodeID = "" ∨
          operation.sequence ≤ max (committedUnder assignment.chainVersion journal)
            (record.commits assignment.chainVersion) →
        operation = history operation.sequence)
    (hcommits : ∀ earlier, materialized < earlier →
      earlier ≤ record.commits assignment.chainVersion →
        (∃ operation, record.prepared? assignment.chainVersion = some operation ∧
          operation.sequence = earlier) ∨
        preparedUnder assignment.chainVersion journal earlier = some (history earlier)) :
    Agrees history materialized assignment (journal ++ [record]) := by
  -- A sequence is prepared by the new record or as before.
  have cases_prepared (sequence : Nat) :
      (∃ operation, record.prepared? assignment.chainVersion = some operation ∧
        operation.sequence = sequence ∧
        preparedUnder assignment.chainVersion (journal ++ [record]) sequence = some operation) ∨
      (∀ operation, record.prepared? assignment.chainVersion = some operation →
        operation.sequence ≠ sequence) ∧
        preparedUnder assignment.chainVersion (journal ++ [record]) sequence =
          preparedUnder assignment.chainVersion journal sequence := by
    rw [preparedUnder_concat]
    cases hrecord : record.prepared? assignment.chainVersion with
    | none => exact .inr ⟨nofun, rfl⟩
    | some operation =>
      by_cases hsequence : operation.sequence = sequence
      · exact .inl ⟨operation, rfl, hsequence, if_pos hsequence⟩
      · refine .inr ⟨?_, if_neg hsequence⟩
        rintro _ ⟨⟩
        exact hsequence
  constructor
  · intro sequence operation hafter hprepared hcovered
    rw [committedUnder_concat] at hcovered
    rcases cases_prepared sequence with ⟨new, hnew, rfl, hset⟩ | ⟨hold, hsame⟩
    · cases hset.symm.trans hprepared
      exact hprepares operation hnew hcovered
    · rw [hsame] at hprepared
      rcases hcovered with htail | hle
      · exact h.kept sequence operation hafter hprepared (.inl htail)
      · rcases le_max_iff.mp hle with hbefore | hmarked
        · exact h.kept sequence operation hafter hprepared (.inr hbefore)
        · rcases hcommits sequence hafter hmarked with ⟨new, hnew, heq⟩ | hheld
          · exact absurd heq (hold new hnew)
          · exact Option.some.inj (hprepared.symm.trans hheld)
  · intro sequence hafter hle
    rw [committedUnder_concat] at hle
    rcases cases_prepared sequence with ⟨new, -, -, hset⟩ | ⟨hold, hsame⟩
    · rw [hset]
      exact nofun
    · rw [hsame]
      rcases le_max_iff.mp hle with hbefore | hmarked
      · exact h.whole sequence hafter hbefore
      · rcases hcommits sequence hafter hmarked with ⟨new, hnew, heq⟩ | hheld
        · exact absurd heq (hold new hnew)
        · rw [hheld]
          exact nofun

theorem Agrees.append
    (fits : record.chainVersion = assignment.chainVersion →
      Fits history materialized assignment journal record.entry) :
    Agrees history materialized assignment (journal ++ [record]) := by
  by_cases hversion : record.chainVersion = assignment.chainVersion
  · have hentry := fits hversion
    have prepares : record.prepared? assignment.chainVersion =
        match record.entry with
        | .prepare operation | .legacyCommit operation _ => some operation
        | _ => none := by
      rw [JournalRecord.prepared?, if_neg (not_not.mpr hversion)]
    have commits : record.commits assignment.chainVersion =
        match record.entry with
        | .commitWatermark sequence | .headCommitRange sequence => sequence
        | .legacyCommit operation _ => operation.sequence
        | _ => 0 := by
      rw [JournalRecord.commits, if_neg (not_not.mpr hversion)]
    apply h.append_of
    · intro operation
      rw [prepares, commits]
      cases hrecord : record.entry with
      | prepare held =>
        rintro ⟨⟩ hcovered
        rw [hrecord] at hentry
        exact hentry (by simpa using hcovered)
      | legacyCommit held confirmed =>
        rintro ⟨⟩ _
        rw [hrecord] at hentry
        exact hentry.1
      | commitWatermark sequence | headCommitRange sequence | upstreamConfirm sequence =>
        exact nofun
    · intro earlier hafter
      rw [prepares, commits]
      cases hrecord : record.entry with
      | prepare held => exact fun hle => absurd (hafter.trans_le hle) (Nat.not_lt_zero _)
      | upstreamConfirm sequence =>
        exact fun hle => absurd (hafter.trans_le hle) (Nat.not_lt_zero _)
      | legacyCommit held confirmed =>
        intro hle
        rw [hrecord] at hentry
        rcases Nat.eq_or_lt_of_le hle with heq | hbefore
        · exact .inl ⟨held, rfl, heq.symm⟩
        · exact .inr (hentry.2 earlier hafter hbefore)
      | commitWatermark sequence | headCommitRange sequence =>
        intro hle
        rw [hrecord] at hentry
        exact .inr (hentry earlier hafter hle)
  · exact h.append_other hversion

end Agreement

/-! ## The durable side of a slot -/

/-- The calls of `recoverReplica`; a backend replica that is missing is created. -/
def recoverReplicaCalls (stores : SlotStores) (assignment : ReplicaAssignment) (snapshot : Snapshot)
    (highest : Nat) : List StoreCall :=
  (if stores.backend.isNone then [.createReplica] else []) ++
    [.installSnapshot snapshot, .setHighestCommittedSequence highest,
      .upsertReplica (persistedReplica (NodeSlot.rebuiltRecord assignment highest))]

/-- The calls of `applyFetchedPredecessorSnapshot` for the record of the replica. -/
def predecessorSyncCalls (record : ReplicaRecord) (snapshot : Snapshot) (highest : Nat) :
    List StoreCall :=
  [.installSnapshot snapshot, .setHighestCommittedSequence highest,
    .upsertReplica (persistedReplica (NodeSlot.reduceSyncedPredecessorState record highest))]

namespace Handlers

variable (n : NodeSlot) (answers : Answers)

/-- The handler of a sync with the predecessor, state by state. -/
def applyFetchedPredecessorSnapshot (plan : PredecessorSyncPlan) (snapshot : Snapshot)
    (highest : Nat) : Handled :=
  let record := n.record
  if !n.runtime.present then {}
  else if record.assignment.chainVersion ≠ plan.chainVersion ∨
      record.assignment.peers.predecessorNodeID ≠ plan.sourceNodeID ∨
      record.assignment.peers.predecessorTarget ≠ plan.sourceTarget then {}
  else if highest ≤ record.highestCommittedSequence then {}
  else
    let dropped := n.dropSlot
    match if n.backend.isNone then some n.unknownSlot else answers.installSnapshot with
    | some err =>
      (Handled.returns (.wrapped "err in n.backend.InstallSnapshot" err)).seen [dropped]
    | none =>
      let installed : NodeSlot :=
        { dropped with
          backend := dropped.backend.map (·.installSnapshot snapshot)
          runtime := { dropped.runtime with committedMetadata := ∅ } }
      match answers.setHighestCommittedSequence with
      | some err =>
        (Handled.returns (.wrapped "err in n.backend.SetHighestCommittedSequence" err)).seen
          [dropped, installed]
      | none =>
        let advanced : NodeSlot :=
          { installed with
            backend := installed.backend.map (·.setHighestCommittedSequence highest) }
        let synced := NodeSlot.reduceSyncedPredecessorState record highest
        let published := advanced.setRecord synced
        (Handled.persistReplica published.allowSlot synced answers []).seen
          [dropped, installed, advanced, published, published.allowSlot]

variable {n answers}

theorem applyFetchedPredecessorSnapshot_final (plan : PredecessorSyncPlan) (snapshot : Snapshot)
    (highest : Nat) (hstore : n.load.localWriteFails = answers.upsertReplica.isSome)
    (hinstall : answers.installSnapshot = none)
    (hhighest : answers.setHighestCommittedSequence = none) :
    n.applyFetchedPredecessorSnapshot plan snapshot highest =
      ((applyFetchedPredecessorSnapshot n answers plan snapshot highest).final n,
        (applyFetchedPredecessorSnapshot n answers plan snapshot highest).outcome.isNone) := by
  rw [NodeSlot.applyFetchedPredecessorSnapshot, applyFetchedPredecessorSnapshot.eq_def]
  by_cases hpresent : n.runtime.present = true
  · simp only [hpresent, Bool.not_true, Bool.false_eq_true, if_false]
    split
    · rfl
    split
    · rfl
    by_cases hbackend : n.backend.isNone = true
    · simp only [hbackend, if_true]
      rfl
    · have same : (((n.installSnapshot snapshot highest).setRecord
          (NodeSlot.reduceSyncedPredecessorState n.record highest)).allowSlot).load = n.load := rfl
      simp only [hbackend, Bool.false_eq_true, if_false, hinstall, hhighest, Handled.persistReplica,
        NodeSlot.persistThen, same, hstore]
      simp only [NodeSlot.installSnapshot, NodeSlot.dropSlot, Option.map_map]
      cases answers.upsertReplica <;> rfl
  · simp only [hpresent, Bool.not_false, if_true]
    rfl

theorem recoverReplica_stores (n : NodeSlot) (assignment : ReplicaAssignment) (snapshot : Snapshot)
    (highest : Nat) :
    ∃ first, let calls := recoverReplicaCalls n.stores assignment snapshot highest
      (withBackend n).stores = n.stores.applyAll (calls.take first) ∧
      (withSnapshot n snapshot).stores = n.stores.applyAll (calls.take (first + 1)) ∧
      (withHighest n snapshot highest).stores = n.stores.applyAll (calls.take (first + 2)) ∧
      ((withHighest n snapshot highest).persistReplica
        (NodeSlot.rebuiltRecord assignment highest)).stores =
          n.stores.applyAll (calls.take (first + 3)) := by
  cases hbackend : n.backend with
  | none =>
    refine ⟨1, ?_⟩
    simp only [recoverReplicaCalls, NodeSlot.stores, hbackend, Option.isNone_none, if_true, withBackend,
      withSnapshot, withHighest, Option.getD_none]
    exact ⟨rfl, rfl, rfl, rfl⟩
  | some data =>
    refine ⟨0, ?_⟩
    simp only [recoverReplicaCalls, NodeSlot.stores, hbackend, Option.isNone_some, withBackend,
      withSnapshot, withHighest, Option.getD_some]
    exact ⟨rfl, rfl, rfl, rfl⟩

/-- The states the handler passes through are those between its calls. -/
theorem recoverReplica_calls {assignment : ReplicaAssignment} {snapshot : Snapshot} {highest : Nat}
    (hfetch : answers.fetchSnapshot = .ok (snapshot, highest)) :
    ∀ state ∈ (recoverReplica n answers assignment).states, ∃ count, state.stores =
      n.stores.applyAll ((recoverReplicaCalls n.stores assignment snapshot highest).take count) := by
  obtain ⟨first, created, installed, advanced, persisted⟩ :=
    recoverReplica_stores n assignment snapshot highest
  rw [recoverReplica]
  split
  · exact List.forall_mem_nil _
  split
  · exact List.forall_mem_nil _
  split
  · exact List.forall_mem_nil _
  split
  · exact List.forall_mem_nil _
  simp only [hfetch, recoverFrom]
  split
  · simp only [Handled.seen, Handled.returns, List.append_nil, List.forall_mem_cons]
    exact ⟨⟨first, created⟩, ⟨first, created⟩, List.forall_mem_nil _⟩
  split
  · simp only [Handled.seen, Handled.returns, List.append_nil, List.cons_append, List.nil_append,
      List.forall_mem_cons]
    exact ⟨⟨first, created⟩, ⟨first, created⟩, ⟨_, installed⟩, List.forall_mem_nil _⟩
  rw [Handled.persistReplica]
  split
  · simp only [Handled.seen, List.append_nil, List.cons_append, List.nil_append,
      List.forall_mem_cons]
    exact ⟨⟨first, created⟩, ⟨first, created⟩, ⟨_, installed⟩, ⟨_, advanced⟩, ⟨_, advanced⟩,
      ⟨_, advanced⟩, List.forall_mem_nil _⟩
  · simp only [Handled.seen, List.cons_append, List.nil_append, List.forall_mem_cons]
    exact ⟨⟨first, created⟩, ⟨first, created⟩, ⟨_, installed⟩, ⟨_, advanced⟩, ⟨_, advanced⟩,
      ⟨_, advanced⟩, ⟨_, persisted⟩, ⟨_, persisted⟩, List.forall_mem_nil _⟩

theorem absent_recovery_calls :
    let handled :=
      recoverReplica { config := plainConfig "a" } { fetchSnapshot := .ok (∅, 3) } headOfTwo
    handled.states.length = 8 ∧ ∀ state ∈ handled.states, ∃ count, state.stores =
      SlotStores.applyAll {} ((recoverReplicaCalls {} headOfTwo ∅ 3).take count) :=
  ⟨rfl, recoverReplica_calls rfl⟩

theorem applyFetchedPredecessorSnapshot_calls {plan : PredecessorSyncPlan} {snapshot : Snapshot}
    {highest : Nat} :
    ∀ state ∈ (applyFetchedPredecessorSnapshot n answers plan snapshot highest).states,
      ∃ count, state.stores =
        n.stores.applyAll ((predecessorSyncCalls n.record snapshot highest).take count) := by
  rw [applyFetchedPredecessorSnapshot.eq_def]
  simp only
  split
  · exact List.forall_mem_nil _
  split
  · exact List.forall_mem_nil _
  split
  · exact List.forall_mem_nil _
  split
  · simp only [Handled.seen, Handled.returns, List.append_nil, List.forall_mem_cons]
    exact ⟨⟨0, rfl⟩, List.forall_mem_nil _⟩
  split
  · simp only [Handled.seen, Handled.returns, List.append_nil, List.forall_mem_cons]
    exact ⟨⟨0, rfl⟩, ⟨1, rfl⟩, List.forall_mem_nil _⟩
  rw [Handled.persistReplica]
  split
  · simp only [Handled.seen, List.append_nil, List.forall_mem_cons]
    exact ⟨⟨0, rfl⟩, ⟨1, rfl⟩, ⟨2, rfl⟩, ⟨2, rfl⟩, ⟨2, rfl⟩, List.forall_mem_nil _⟩
  · simp only [Handled.seen, List.cons_append, List.nil_append, List.forall_mem_cons]
    exact ⟨⟨0, rfl⟩, ⟨1, rfl⟩, ⟨2, rfl⟩, ⟨2, rfl⟩, ⟨2, rfl⟩, ⟨3, rfl⟩, ⟨3, rfl⟩,
      List.forall_mem_nil _⟩

theorem staged_sync_calls :
    let handled := applyFetchedPredecessorSnapshot stagedOne {} ⟨"b", "", 1, 0⟩ ∅ 3
    handled.states.length = 7 ∧ ∀ state ∈ handled.states, ∃ count, state.stores =
      stagedOne.stores.applyAll ((predecessorSyncCalls stagedOne.record ∅ 3).take count) :=
  ⟨by decide +kernel, applyFetchedPredecessorSnapshot_calls⟩

end Handlers

/-- What is durable of a slot, with the calls of the running command that are still to come and
whether the node has just been opened again. -/
structure SlotDisk where
  stores : SlotStores := {}
  journal : List JournalRecord := []
  pending : List StoreCall := []
  opened : Bool := false

inductive DiskEvent where
  | append (record : JournalRecord)
  | materialize (commit : DurableCommit)
  -- A command that only persists another record.
  | persist (replica : PersistedReplica)
  | recoverReplica (assignment : ReplicaAssignment) (snapshot : Snapshot) (highest : Nat)
  | syncFromPredecessor (record : ReplicaRecord) (snapshot : Snapshot) (highest : Nat)
  | call
  -- The next call fails, and the command gives up.
  | fail
  | crash

namespace SlotDisk

/-- No snapshot has been installed whose record is not persisted yet. -/
def interruptible (disk : SlotDisk) : Bool :=
  disk.pending.isEmpty || disk.pending.any fun
    | .installSnapshot _ => true
    | _ => false

/-- A dropped slot is not materialized, and an owner runs one command at a time. -/
def step (disk : SlotDisk) : DiskEvent → Option SlotDisk
  | .append record => some { disk with journal := disk.journal ++ [record], opened := false }
  | .materialize commit =>
    if !disk.interruptible then none
    else
      match disk.stores.backend with
      | none => none
      | some data =>
        match data.applyCommitted commit with
        | .error _ => none
        | .ok data =>
          some { disk with stores := { disk.stores with backend := some data }, opened := false }
  | .persist replica =>
    if disk.pending.isEmpty && disk.stores.localState.isSome then
      some { disk with stores := disk.stores.apply (.upsertReplica replica), opened := false }
    else none
  | .recoverReplica assignment snapshot highest =>
    if disk.pending.isEmpty then
      some
        { disk with
          pending := recoverReplicaCalls disk.stores assignment snapshot highest
          opened := false }
    else none
  | .syncFromPredecessor record snapshot highest =>
    if disk.pending.isEmpty && disk.stores.backend.isSome then
      some { disk with pending := predecessorSyncCalls record snapshot highest, opened := false }
    else none
  | .call =>
    match disk.pending with
    | [] => none
    | call :: rest =>
      some { disk with stores := disk.stores.apply call, pending := rest, opened := false }
  | .fail => if disk.pending.isEmpty then none else some { disk with pending := [], opened := false }
  | .crash => some { disk with pending := [], opened := true }

/-- The condition on the steps.  Snapshots are of the history; the journal and the materializer
take what is of the history; a record is persisted only with a journal that goes on from the data;
a lost backend replica is not created again under a record that is still stored; and no command is
cut short between a snapshot and the record that belongs to it. -/
def Allows (history : Nat → WriteOperation) (disk : SlotDisk) : DiskEvent → Prop
  | .append record =>
    disk.interruptible = true → ∀ stored ∈ disk.stores.localState, ∀ data ∈ disk.stores.backend,
      record.chainVersion = stored.assignment.chainVersion →
        Fits history data.highestCommitted stored.assignment disk.journal record.entry
  | .materialize commit =>
    ∀ data ∈ disk.stores.backend, commit.operation = history (data.highestCommitted + 1)
  | .persist replica =>
    ∀ data ∈ disk.stores.backend,
      Agrees history data.highestCommitted replica.assignment disk.journal
  | .recoverReplica _ snapshot highest =>
    snapshot = dataUpTo history highest ∧
      (disk.stores.backend = none → disk.stores.localState = none)
  | .syncFromPredecessor _ snapshot highest => snapshot = dataUpTo history highest
  | .call =>
    ∀ replica rest, disk.pending = .upsertReplica replica :: rest →
      ∀ data ∈ disk.stores.backend,
        Agrees history data.highestCommitted replica.assignment disk.journal
  | .fail | .crash => disk.interruptible = true

inductive Safe (history : Nat → WriteOperation) : SlotDisk → Prop
  | settled {disk : SlotDisk} (none : disk.pending = [])
    (sound : disk.stores.Sound history disk.journal) : Safe history disk
  | created {disk : SlotDisk} (highest : Nat) (replica : PersistedReplica)
    (ahead : disk.pending =
      [.createReplica, .installSnapshot (dataUpTo history highest),
        .setHighestCommittedSequence highest, .upsertReplica replica])
    (unstored : disk.stores.localState = .none) : Safe history disk
  | fetched {disk : SlotDisk} (highest : Nat) (replica : PersistedReplica)
    (ahead : disk.pending =
      [.installSnapshot (dataUpTo history highest), .setHighestCommittedSequence highest,
        .upsertReplica replica])
    (held : disk.stores.backend.isSome = true)
    (sound : disk.stores.Sound history disk.journal) : Safe history disk
  | installed {disk : SlotDisk} (highest : Nat) (replica : PersistedReplica) (data : ReplicaData)
    (ahead : disk.pending = [.setHighestCommittedSequence highest, .upsertReplica replica])
    (held : disk.stores.backend = some data)
    (filled : data.committed = dataUpTo history highest) : Safe history disk
  | advanced {disk : SlotDisk} (replica : PersistedReplica) (data : ReplicaData)
    (ahead : disk.pending = [.upsertReplica replica]) (held : disk.stores.backend = some data)
    (filled : data.committed = dataUpTo history data.highestCommitted) : Safe history disk

variable {history : Nat → WriteOperation} {disk next : SlotDisk}

/-- Up to the snapshot the stores are as the command found them. -/
theorem Safe.sound (h : disk.Safe history) (hinterruptible : disk.interruptible = true) :
    disk.stores.Sound history disk.journal := by
  cases h with
  | settled none sound => exact sound
  | created highest replica ahead unstored =>
    intro stored hstored
    exact absurd (unstored.symm.trans hstored) nofun
  | fetched highest replica ahead held sound => exact sound
  | installed highest replica data ahead held filled =>
    simp [interruptible, ahead] at hinterruptible
  | advanced replica data ahead held filled => simp [interruptible, ahead] at hinterruptible

theorem Safe.interrupted (h : disk.Safe history) (hinterruptible : disk.interruptible = true)
    (opened : Bool) : Safe history { disk with pending := [], opened } :=
  .settled rfl (h.sound hinterruptible)

theorem Safe.append (h : disk.Safe history) (record : JournalRecord)
    (fits : disk.Allows history (.append record)) :
    Safe history { disk with journal := disk.journal ++ [record], opened := false } := by
  have kept (sound : disk.stores.Sound history disk.journal)
      (hinterruptible : disk.interruptible = true) :
      disk.stores.Sound history (disk.journal ++ [record]) := by
    intro stored hstored data hdata
    have ⟨filled, agrees⟩ := sound stored hstored data hdata
    exact ⟨filled, agrees.append (fits hinterruptible stored hstored data hdata)⟩
  cases h with
  | settled none sound => exact .settled none (kept sound (by simp [interruptible, none]))
  | created highest replica ahead unstored => exact .created highest replica ahead unstored
  | fetched highest replica ahead held sound =>
    exact .fetched highest replica ahead held (kept sound (by simp [interruptible, ahead]))
  | installed highest replica data ahead held filled =>
    exact .installed highest replica data ahead held filled
  | advanced replica data ahead held filled => exact .advanced replica data ahead held filled

theorem sound_materialized {stores : SlotStores} {journal : List JournalRecord}
    {data later : ReplicaData} {commit : DurableCommit} (h : stores.Sound history journal)
    (held : stores.backend = some data) (applied : data.applyCommitted commit = .ok later)
    (heq : commit.operation = history (data.highestCommitted + 1)) :
    SlotStores.Sound history { stores with backend := some later } journal := by
  rintro stored hstored _ ⟨⟩
  obtain ⟨filled, agrees⟩ := h stored hstored data held
  rw [ReplicaData.applyCommitted] at applied
  split at applied
  · cases applied
  · rename_i hnext
    cases applied
    have hsequence : commit.operation.sequence = data.highestCommitted + 1 := not_not.mp hnext
    constructor
    · simp only
      rw [hsequence, dataUpTo_succ, filled, heq]
    · simp only
      rw [hsequence]
      exact agrees.mono (Nat.le_succ _)

theorem Safe.materialize (h : disk.Safe history) (hinterruptible : disk.interruptible = true)
    {data later : ReplicaData} {commit : DurableCommit} (held : disk.stores.backend = some data)
    (applied : data.applyCommitted commit = .ok later)
    (heq : commit.operation = history (data.highestCommitted + 1)) :
    Safe history
      { disk with stores := { disk.stores with backend := some later }, opened := false } := by
  cases h with
  | settled none sound => exact .settled none (sound_materialized sound held applied heq)
  | created highest replica ahead unstored => exact .created highest replica ahead unstored
  | fetched highest replica ahead _ sound =>
    exact .fetched highest replica ahead rfl (sound_materialized sound held applied heq)
  | installed highest replica data ahead held filled =>
    simp [interruptible, ahead] at hinterruptible
  | advanced replica data ahead held filled => simp [interruptible, ahead] at hinterruptible

theorem Safe.call {call : StoreCall} {rest : List StoreCall} (h : disk.Safe history)
    (ahead : disk.pending = call :: rest) (allowed : disk.Allows history .call) :
    Safe history
      { disk with stores := disk.stores.apply call, pending := rest, opened := false } := by
  cases h with
  | settled none sound => exact absurd (none.symm.trans ahead) nofun
  | created highest replica hpending unstored =>
    cases hpending.symm.trans ahead
    refine .fetched highest replica rfl rfl ?_
    intro stored hstored
    exact absurd (unstored.symm.trans hstored) nofun
  | fetched highest replica hpending held sound =>
    cases hpending.symm.trans ahead
    obtain ⟨data, hdata⟩ := Option.isSome_iff_exists.mp held
    refine .installed highest replica (data.installSnapshot (dataUpTo history highest)) rfl ?_ rfl
    simp only [SlotStores.apply, hdata, Option.map_some]
  | installed highest replica data hpending held filled =>
    cases hpending.symm.trans ahead
    refine .advanced replica (data.setHighestCommittedSequence highest) rfl ?_ filled
    simp only [SlotStores.apply, held, Option.map_some]
  | advanced replica data hpending held filled =>
    cases hpending.symm.trans ahead
    refine .settled rfl ?_
    rintro _ ⟨⟩ other hother
    cases held.symm.trans hother
    exact ⟨filled, allowed replica [] hpending data held⟩

theorem Safe.step {event : DiskEvent} (h : disk.Safe history) (allowed : disk.Allows history event)
    (hstep : disk.step event = some next) : next.Safe history := by
  cases event with
  | append record =>
    cases hstep
    exact h.append record allowed
  | materialize commit =>
    rw [SlotDisk.step] at hstep
    split at hstep
    · exact absurd hstep nofun
    rename_i hinterruptible
    split at hstep
    · exact absurd hstep nofun
    rename_i data hdata
    split at hstep
    · exact absurd hstep nofun
    rename_i later happlied
    cases hstep
    exact h.materialize (by simpa using hinterruptible) hdata happlied (allowed data hdata)
  | persist replica =>
    rw [SlotDisk.step] at hstep
    split at hstep
    · rename_i hready
      cases hstep
      have ⟨hidle, hstored⟩ := Bool.and_eq_true_iff.mp hready
      have hpending : disk.pending = [] := List.isEmpty_iff.mp hidle
      obtain ⟨stored, hstored⟩ := Option.isSome_iff_exists.mp hstored
      refine .settled hpending ?_
      rintro _ ⟨⟩ data hdata
      have sound := h.sound (by simp [interruptible, hpending])
      exact ⟨(sound stored hstored data hdata).1, allowed data hdata⟩
    · exact absurd hstep nofun
  | recoverReplica assignment snapshot highest =>
    rw [SlotDisk.step] at hstep
    split at hstep
    · rename_i hidle
      cases hstep
      have hpending : disk.pending = [] := List.isEmpty_iff.mp hidle
      obtain ⟨rfl, hlost⟩ := allowed
      cases hbackend : disk.stores.backend with
      | none =>
        refine .created highest (persistedReplica (NodeSlot.rebuiltRecord assignment highest)) ?_
          (hlost hbackend)
        simp only [recoverReplicaCalls, hbackend]
        rfl
      | some data =>
        refine .fetched highest (persistedReplica (NodeSlot.rebuiltRecord assignment highest)) ?_
          (by simp [hbackend]) (h.sound (by simp [interruptible, hpending]))
        simp only [recoverReplicaCalls, hbackend]
        rfl
    · exact absurd hstep nofun
  | syncFromPredecessor record snapshot highest =>
    rw [SlotDisk.step] at hstep
    split at hstep
    · rename_i hready
      cases hstep
      have ⟨hidle, hheld⟩ := Bool.and_eq_true_iff.mp hready
      have hpending : disk.pending = [] := List.isEmpty_iff.mp hidle
      cases (allowed : snapshot = dataUpTo history highest)
      exact .fetched highest _ rfl hheld (h.sound (by simp [interruptible, hpending]))
    · exact absurd hstep nofun
  | call =>
    rw [SlotDisk.step] at hstep
    split at hstep
    · exact absurd hstep nofun
    · rename_i ahead
      cases hstep
      exact h.call ahead allowed
  | fail =>
    rw [SlotDisk.step] at hstep
    split at hstep
    · exact absurd hstep nofun
    · cases hstep
      exact h.interrupted allowed false
  | crash =>
    cases hstep
    exact h.interrupted allowed true

theorem step_opened {event : DiskEvent} (hstep : disk.step event = some next)
    (hopened : next.opened = true) : next.pending = [] := by
  have closed {changed : SlotDisk} (hclosed : changed.opened = false)
      (heq : some changed = some next) : next.pending = [] := by
    cases heq
    exact absurd (hclosed.symm.trans hopened) nofun
  cases event with
  | append record => exact closed rfl hstep
  | crash =>
    cases hstep
    rfl
  | _ =>
    rw [SlotDisk.step.eq_def] at hstep
    simp only at hstep
    repeat' split at hstep
    all_goals first | exact closed rfl hstep | cases hstep

/-- Whenever the node is opened again, the data of the backend with the operations replayed from
the journal is the history up to the sequence that is reported as committed. -/
theorem reopened_slot_holds_history {start : SlotDisk} (idle : start.pending = [])
    (sound : start.stores.Sound history start.journal)
    (h : Reaches SlotDisk.step (SlotDisk.Allows history) start disk) (opened : disk.opened = true) :
    disk.stores.Reopens history disk.journal := by
  let Kept := fun disk : SlotDisk =>
    disk.Safe history ∧ (disk.opened = true → disk.pending = [])
  have kept : Kept disk := by
    apply h.invariant
    · exact ⟨.settled idle sound, fun _ => idle⟩
    · rintro state event next ⟨safe, -⟩ allowed hstep
      exact ⟨safe.step allowed hstep, step_opened hstep⟩
  exact (kept.1.sound (by simp [interruptible, kept.2 opened])).reopens

/-! ### Two keys written one after the other -/

def writeAThenB (sequence : Nat) : WriteOperation where
  slot := 0
  sequence
  kind := .put
  key := if sequence = 1 then "a" else "b"
  value := ""
  metadata := { version := 1 }

def holdsA : SlotDisk where
  stores :=
    { backend := some { committed := dataUpTo writeAThenB 1, highestCommitted := 1 }
      localState :=
        some (persistedReplica (NodeSlot.rebuiltRecord { chainVersion := 1, role := .single } 1)) }

theorem holdsA_sound : holdsA.stores.Sound writeAThenB holdsA.journal := by
  rintro _ _ _ ⟨⟩
  exact ⟨rfl, .empty⟩

/-- It recovers from a node that has both; the first `count` calls have taken effect. -/
def recovering (count : Nat) : SlotDisk :=
  let calls := recoverReplicaCalls holdsA.stores { chainVersion := 2, role := .single }
    (dataUpTo writeAThenB 2) 2
  { holdsA with stores := holdsA.stores.applyAll (calls.take count), pending := calls.drop count }

theorem recovering_installed :
    Reaches SlotDisk.step (SlotDisk.Allows writeAThenB) holdsA (recovering 1) := by
  have recovers : holdsA.Allows writeAThenB
      (.recoverReplica { chainVersion := 2, role := .single } (dataUpTo writeAThenB 2) 2) :=
    ⟨rfl, nofun⟩
  have begun : Reaches SlotDisk.step (SlotDisk.Allows writeAThenB) holdsA (recovering 0) :=
    Reaches.refl.tail recovers rfl
  have installs : (recovering 0).Allows writeAThenB .call := by
    rintro replica rest ⟨⟩
  exact begun.tail installs rfl

theorem recovered_holds_both :
    ∃ disk, Reaches SlotDisk.step (SlotDisk.Allows writeAThenB) holdsA disk ∧
      disk.opened = true ∧ disk.stores.Reopens writeAThenB disk.journal := by
  have advances : (recovering 1).Allows writeAThenB .call := by
    rintro replica rest ⟨⟩
  have advanced : Reaches SlotDisk.step (SlotDisk.Allows writeAThenB) holdsA (recovering 2) :=
    recovering_installed.tail advances rfl
  have persists : (recovering 2).Allows writeAThenB .call := fun _ _ _ _ _ => .empty
  have persisted : Reaches SlotDisk.step (SlotDisk.Allows writeAThenB) holdsA (recovering 3) :=
    advanced.tail persists rfl
  have crashes : (recovering 3).Allows writeAThenB .crash := rfl
  have crashed : Reaches SlotDisk.step (SlotDisk.Allows writeAThenB) holdsA
      { recovering 3 with opened := true } :=
    persisted.tail crashes rfl
  exact ⟨_, crashed, rfl, reopened_slot_holds_history rfl holdsA_sound crashed rfl⟩

/-- The node crashes once the snapshot is installed, before the sequence is set: it reports the
first write as the last one committed and has the second one in its data. -/
theorem crash_after_install_keeps_old_sequence :
    ∃ (history : Nat → WriteOperation) (start before after : SlotDisk),
      start.pending = [] ∧ start.stores.Sound history start.journal ∧
      Reaches SlotDisk.step (SlotDisk.Allows history) start before ∧
      before.step .crash = some after ∧ after.opened = true ∧
      ¬after.stores.Reopens history after.journal := by
  refine ⟨writeAThenB, holdsA, recovering 1, _, rfl, holdsA_sound, recovering_installed, rfl, rfl,
    ?_⟩
  intro h
  have mixed := h _ rfl _ rfl
  revert mixed
  decide +kernel

end SlotDisk

end Craq.Storage
