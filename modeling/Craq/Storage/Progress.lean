import Craq.Storage.Frame
import Craq.Storage.Flow

/-! # Commits and batches as a whole

A run of the commit loop takes the prepared operations in order and leaves everything else of the
record as it is.  A batch of the materializer is either refused or brings the backend up to its
last operation.
-/

namespace Craq.Storage

/-! ## The commit loop -/

/-- The operations a replica has prepared are kept under their own sequences, all given out. -/
def ReplicaRecord.Keyed (record : ReplicaRecord) : Prop :=
  ∀ (sequence : Nat) (operation : WriteOperation),
    record.preparedEntries[sequence]? = some operation →
      operation.sequence = sequence ∧ sequence < record.nextSequence

variable (record : ReplicaRecord) {limit : Nat}

theorem reduceRemoveDirtyEntry_eq (key : String) (sequence : Nat) :
    reduceRemoveDirtyEntry record key sequence =
      { record with dirtyByKey := (reduceRemoveDirtyEntry record key sequence).dirtyByKey } := by
  unfold reduceRemoveDirtyEntry
  dsimp only
  repeat' split
  all_goals rfl

/-- What stays as it is in a record while operations are committed. -/
structure ReplicaRecord.CommitsThrough (record next : ReplicaRecord) : Prop where
  assignment : next.assignment = record.assignment
  state : next.state = record.state
  sequence : next.nextSequence = record.nextSequence
  prepared : next.highestPreparedDurable = record.highestPreparedDurable
  token : next.highestCommitTokenReceived = record.highestCommitTokenReceived
  materialized : next.materializedCommittedSequence = record.materializedCommittedSequence
  entries : next.preparedEntries = record.preparedEntries
  buffered : next.bufferedForwards = record.bufferedForwards

namespace ReplicaRecord.CommitsThrough

variable {record middle next : ReplicaRecord}

theorem refl (record : ReplicaRecord) : record.CommitsThrough record :=
  ⟨rfl, rfl, rfl, rfl, rfl, rfl, rfl, rfl⟩

theorem trans (first : record.CommitsThrough middle) (second : middle.CommitsThrough next) :
    record.CommitsThrough next where
  assignment := second.assignment.trans first.assignment
  state := second.state.trans first.state
  sequence := second.sequence.trans first.sequence
  prepared := second.prepared.trans first.prepared
  token := second.token.trans first.token
  materialized := second.materialized.trans first.materialized
  entries := second.entries.trans first.entries
  buffered := second.buffered.trans first.buffered

end ReplicaRecord.CommitsThrough

theorem reduceApplyCommittedSequence_through (operation : WriteOperation) (sequence limit : Nat) :
    let applied := reduceApplyCommittedSequence record operation sequence limit
    record.CommitsThrough applied ∧ applied.highestCommittedSequence = sequence ∧
      applied.highestUpstreamConfirmedSequence = record.highestUpstreamConfirmedSequence := by
  rw [reduceApplyCommittedSequence, reduceRemoveDirtyEntry_eq]
  dsimp only
  split
  · exact ⟨⟨rfl, rfl, rfl, rfl, rfl, rfl, rfl, rfl⟩, rfl, rfl⟩
  · exact ⟨⟨rfl, rfl, rfl, rfl, rfl, rfl, rfl, rfl⟩, rfl, rfl⟩

theorem commitNext_through {progress next : NodeSlot.CommitProgress}
    (h : NodeSlot.commitNext limit progress = some next) :
    progress.record.CommitsThrough next.record ∧
      next.record.highestCommittedSequence = progress.record.highestCommittedSequence + 1 ∧
      next.record.highestUpstreamConfirmedSequence =
        progress.record.highestUpstreamConfirmedSequence := by
  simp only [NodeSlot.commitNext] at h
  split at h
  · cases h
  · rename_i operation hop
    cases h
    have ⟨through, committed, confirmed⟩ := reduceApplyCommittedSequence_through progress.record
      operation (progress.record.highestCommittedSequence + 1) limit
    dsimp only [recordWithCommittedOverlay]
    split
    · exact ⟨through.trans ⟨rfl, rfl, rfl, rfl, rfl, rfl, rfl, rfl⟩, committed, confirmed⟩
    · exact ⟨through.trans ⟨rfl, rfl, rfl, rfl, rfl, rfl, rfl, rfl⟩, committed, confirmed⟩

theorem commitSequences_through {count : Nat} {progress last : NodeSlot.CommitProgress}
    (h : NodeSlot.commitSequences limit count progress = (last, true)) :
    progress.record.CommitsThrough last.record ∧
      last.record.highestCommittedSequence = progress.record.highestCommittedSequence + count ∧
      last.record.highestUpstreamConfirmedSequence =
        progress.record.highestUpstreamConfirmedSequence := by
  induction count generalizing progress with
  | zero =>
    cases h
    exact ⟨.refl _, rfl, rfl⟩
  | succ count ih =>
    rw [NodeSlot.commitSequences] at h
    split at h
    · cases h
    · rename_i next hnext
      obtain ⟨through, hcommitted, hconfirmed⟩ := commitNext_through hnext
      obtain ⟨rest, hlast, hkept⟩ := ih h
      refine ⟨through.trans rest, ?_, hkept.trans hconfirmed⟩
      omega

theorem confirmedAtHead_through {count : Nat} {record : ReplicaRecord}
    {cache : Std.ExtTreeMap String (Option ObjectMetadata)} {last : NodeSlot.CommitProgress}
    (h : NodeSlot.commitSequences limit count { record, committedMetadata := cache } = (last, true)) :
    let next := NodeSlot.confirmedAtHead last.record (record.highestCommittedSequence + count)
    record.CommitsThrough next ∧
      next.highestCommittedSequence = record.highestCommittedSequence + count := by
  obtain ⟨through, hlast, -⟩ := commitSequences_through h
  rw [NodeSlot.confirmedAtHead]
  split
  · exact ⟨through.trans ⟨rfl, rfl, rfl, rfl, rfl, rfl, rfl, rfl⟩, hlast⟩
  · exact ⟨through, hlast⟩

/-- Every prepared operation is kept under its own sequence. -/
def ReplicaRecord.Named (record : ReplicaRecord) : Prop :=
  ∀ (sequence : Nat) (operation : WriteOperation),
    record.preparedEntries[sequence]? = some operation → operation.sequence = sequence

theorem ReplicaRecord.Named.le_of_mem_preparedOperations {record : ReplicaRecord}
    (h : record.Named) {first last : Nat} {operation : WriteOperation}
    (hmem : operation ∈ preparedOperations record first last) : operation.sequence ≤ last := by
  rw [preparedOperations, List.mem_filterMap] at hmem
  obtain ⟨sequence, hplace, hentry⟩ := hmem
  rw [List.mem_range'_1] at hplace
  have := h sequence operation hentry
  omega

/-! ## Snapshots and assignments -/

theorem NodeSlot.delivered_mem {n : NodeSlot} {input : NodeInput}
    {answer : SnapshotUse × Snapshot × Nat} (h : n.delivered input = some answer) :
    answer ∈ n.core.answers := by
  rw [NodeSlot.delivered.eq_def] at h
  split at h
  · split at h
    · rename_i use source reply rest htasks
      cases h
      refine List.mem_append_left _ (List.mem_flatMap.mpr ⟨.awaitSnapshot use source (some reply), ?_, ?_⟩)
      · rw [htasks]
        exact List.mem_cons_self
      · exact List.mem_cons_self
    · cases h
  · split at h
    · rename_i plan reply hcall
      cases h
      refine List.mem_append_right _ (List.mem_flatMap.mpr ⟨.catchup plan (some reply), ?_, ?_⟩)
      · exact List.mem_of_getElem? hcall
      · exact List.mem_cons_self
    · cases h
  · cases h

theorem NodeSlot.mem_awaits {n : NodeSlot} {use : SnapshotUse} {source : String}
    {reply : Option (Snapshot × Nat)}
    (due : n.tasks.head? = some (.awaitSnapshot use source reply)) :
    (use, source) ∈ n.core.awaits := by
  obtain ⟨rest, htasks⟩ := List.head?_eq_some_iff.mp due
  simp [NodeSlot.core, NodeSlot.coreWith, htasks, Task.awaits]

theorem reduceSyncedPredecessorState_counters (highest : Nat) :
    let synced := NodeSlot.reduceSyncedPredecessorState record highest
    synced.assignment = record.assignment ∧ synced.state = record.state ∧
      synced.preparedEntries = record.preparedEntries ∧
      synced.nextSequence = max record.nextSequence (highest + 1) ∧
      synced.highestPreparedDurable = highest ∧ synced.highestCommitTokenReceived = highest ∧
      synced.highestCommittedSequence = highest ∧
      synced.highestUpstreamConfirmedSequence = highest := by
  dsimp only
  rw [NodeSlot.reduceSyncedPredecessorState, NodeSlot.rebuildDirtyEntries,
    foldl_reduceAddDirtyEntry_eq]
  exact ⟨rfl, rfl, rfl, rfl, rfl, rfl, rfl, rfl⟩

theorem reduceSyncedPredecessorState_materialized (highest : Nat) :
    (NodeSlot.reduceSyncedPredecessorState record highest).materializedCommittedSequence =
      highest := by
  rw [NodeSlot.reduceSyncedPredecessorState, NodeSlot.rebuildDirtyEntries,
    foldl_reduceAddDirtyEntry_eq]

theorem reassigned_counters (assignment : ReplicaAssignment) :
    let next := NodeSlot.reassigned record assignment
    next.state = record.state ∧ next.preparedEntries = record.preparedEntries ∧
      next.nextSequence = record.nextSequence ∧
      next.highestPreparedDurable = record.highestPreparedDurable ∧
      next.highestCommittedSequence = record.highestCommittedSequence := by
  dsimp only
  rw [NodeSlot.reassigned, NodeSlot.followSuccessor, NodeSlot.followPredecessor]
  dsimp only
  repeat' split
  all_goals exact ⟨rfl, rfl, rfl, rfl, rfl⟩

theorem reassigned_place (assignment : ReplicaAssignment) :
    (NodeSlot.reassigned record assignment).assignment = assignment := by
  rw [NodeSlot.reassigned, NodeSlot.followSuccessor, NodeSlot.followPredecessor]
  dsimp only
  repeat' split
  all_goals rfl

/-! ## Forwards -/

theorem reduceBufferFutureForward_eq {record next : ReplicaRecord} {req : ForwardWriteRequest}
    {limits : BufferLimits} (h : reduceBufferFutureForward record req limits = .ok next) :
    ∃ buffered, next = { record with bufferedForwards := buffered } := by
  rw [reduceBufferFutureForward] at h
  split at h
  · split at h
    · cases h
      exact ⟨record.bufferedForwards, rfl⟩
    · cases h
  · obtain ⟨_, -, hnext⟩ := Lib.bind_eq_ok.mp h
    cases hnext
    exact ⟨_, rfl⟩

/-- What the reduction of a forward does to the record, by what is to be done with the forward. -/
theorem reduceForwardWrite_cases {record reduced : ReplicaRecord} {req : ForwardWriteRequest}
    {limits : BufferLimits} {action : ReducerAction}
    (h : reduceForwardWrite record req limits = .ok ⟨reduced, action⟩) :
    action = .ignore ∧ reduced = record ∨
      action = .buffer ∧ record.nextSequence < req.operation.sequence ∧
        reduceBufferFutureForward record req limits = .ok reduced ∨
      action = .apply ∧ req.operation.sequence = record.nextSequence ∧
        reduced = reduceStageForward record req := by
  rw [reduceForwardWrite] at h
  obtain ⟨_, -, h⟩ := Lib.bind_eq_ok.mp h
  split at h
  · obtain ⟨_, -, h⟩ := Lib.bind_eq_ok.mp h
    cases h
    exact .inl ⟨rfl, rfl⟩
  split at h
  · rename_i hlater
    obtain ⟨next, hnext, h⟩ := Lib.bind_eq_ok.mp h
    cases h
    exact .inr (.inl ⟨rfl, hlater, hnext⟩)
  · cases h
    exact .inr (.inr ⟨rfl, by omega, rfl⟩)

theorem reduceStageForward_counters (req : ForwardWriteRequest) :
    let staged := reduceStageForward record req
    staged.assignment = record.assignment ∧ staged.state = record.state ∧
      staged.highestPreparedDurable = record.highestPreparedDurable ∧
      staged.highestCommitTokenReceived = record.highestCommitTokenReceived ∧
      staged.highestCommittedSequence = record.highestCommittedSequence ∧
      staged.highestUpstreamConfirmedSequence = record.highestUpstreamConfirmedSequence := by
  rw [reduceStageForward]
  dsimp only
  split
  · exact ⟨rfl, rfl, rfl, rfl, rfl, rfl⟩
  · exact ⟨rfl, rfl, rfl, rfl, rfl, rfl⟩

/-! ## Batches of the materializer -/

/-- The commits follow each other, the first one after the sequence. -/
def FollowOn (sequence : Nat) : List DurableCommit → Prop
  | [] => True
  | commit :: commits => commit.operation.sequence = sequence + 1 ∧ FollowOn (sequence + 1) commits

variable {commits : List DurableCommit}

theorem filterMaterializedCommits_ok {highest : Nat} {filtered : List DurableCommit}
    (h : filterMaterializedCommits highest commits = .ok filtered) :
    filtered.Sublist commits ∧ FollowOn highest filtered ∧
      ∀ commit ∈ commits, commit.operation.sequence ≤ highest + filtered.length := by
  induction commits generalizing highest filtered with
  | nil =>
    cases h
    exact ⟨.slnil, trivial, List.forall_mem_nil _⟩
  | cons commit commits ih =>
    rw [filterMaterializedCommits] at h
    split at h
    · rename_i hheld
      have ⟨hsub, hfollow, hbound⟩ := ih h
      refine ⟨hsub.cons _, hfollow, List.forall_mem_cons.mpr ⟨?_, hbound⟩⟩
      omega
    rw [Lib.ite_error_eq_ok, not_not] at h
    obtain ⟨hsequence, h⟩ := h
    obtain ⟨rest, hrest, rfl⟩ := Lib.map_eq_ok.mp h
    rw [hsequence] at hrest
    have ⟨hsub, hfollow, hbound⟩ := ih hrest
    refine ⟨hsub.cons_cons _, ⟨hsequence, hfollow⟩, List.forall_mem_cons.mpr ⟨?_, ?_⟩⟩
    · simp only [List.length_cons]
      omega
    · intro held hmem
      have := hbound held hmem
      simp only [List.length_cons]
      omega

theorem ReplicaData.applyCommittedBatch_followOn (data : ReplicaData)
    (h : FollowOn data.highestCommitted commits) :
    ∃ next, data.applyCommittedBatch commits = (next, none) ∧
      next.highestCommitted = data.highestCommitted + commits.length ∧
      next.committed =
        (commits.map (·.operation)).foldl Snapshot.applyOperation data.committed := by
  induction commits generalizing data with
  | nil => exact ⟨data, rfl, rfl, rfl⟩
  | cons commit commits ih =>
    obtain ⟨hsequence, hrest⟩ := h
    have happlied : data.applyCommitted commit = .ok
        { committed := data.committed.applyOperation commit.operation
          highestCommitted := commit.operation.sequence
          highestUpstreamConfirmed := commit.upstreamConfirmedSequence } := by
      rw [ReplicaData.applyCommitted, if_neg (not_not.mpr hsequence)]
    obtain ⟨next, hnext, hheight, hcommitted⟩ := ih
      { committed := data.committed.applyOperation commit.operation
        highestCommitted := commit.operation.sequence
        highestUpstreamConfirmed := commit.upstreamConfirmedSequence } (hsequence ▸ hrest)
    refine ⟨next, ?_, ?_, hcommitted⟩
    · rw [ReplicaData.applyCommittedBatch, happlied]
      exact hnext
    · simp only [hheight, List.length_cons, hsequence]
      omega

/-- The backend after it has taken the commits. -/
structure ReplicaData.Takes (data : ReplicaData) (commits taken : List DurableCommit)
    (next : ReplicaData) : Prop where
  sublist : taken.Sublist commits
  follow : FollowOn data.highestCommitted taken
  height : next.highestCommitted = data.highestCommitted + taken.length
  bound : ∀ commit ∈ commits, commit.operation.sequence ≤ next.highestCommitted
  committed : next.committed =
    (taken.map (·.operation)).foldl Snapshot.applyOperation data.committed

/-- A batch is refused as a whole, or the backend takes all of it that it did not hold. -/
theorem applyMaterializedBatch_cases (data : ReplicaData) (commits : List DurableCommit) :
    (∃ err, applyMaterializedBatch data commits = (data, some err)) ∨
      ∃ taken next, applyMaterializedBatch data commits = (next, none) ∧
        data.Takes commits taken next := by
  rw [applyMaterializedBatch]
  cases hfiltered : filterMaterializedCommits data.highestCommitted commits with
  | error err => exact .inl ⟨err, rfl⟩
  | ok filtered =>
    have ⟨hsub, hfollow, hbound⟩ := filterMaterializedCommits_ok hfiltered
    obtain ⟨next, hnext, hheight, hcommitted⟩ := data.applyCommittedBatch_followOn hfollow
    exact .inr ⟨filtered, next, hnext, hsub, hfollow, hheight, hheight ▸ hbound, hcommitted⟩

theorem highestOperation_le {bound : Nat}
    (h : ∀ commit ∈ commits, commit.operation.sequence ≤ bound) :
    NodeSlot.highestOperation commits ≤ bound := by
  have folded : ∀ highest ≤ bound, commits.foldl
      (fun highest commit => max highest commit.operation.sequence) highest ≤ bound := by
    induction commits with
    | nil => exact fun _ hle => hle
    | cons commit commits ih =>
      intro highest hle
      have ⟨hfirst, hrest⟩ := List.forall_mem_cons.mp h
      exact ih hrest _ (Nat.max_le.mpr ⟨hle, hfirst⟩)
  exact folded 0 (Nat.zero_le bound)

theorem FollowOn.exists_eq {sequence : Nat} (h : FollowOn sequence commits) {last : Nat}
    (hfirst : sequence < last) (hlast : last ≤ sequence + commits.length) :
    ∃ commit ∈ commits, commit.operation.sequence = last := by
  induction commits generalizing sequence with
  | nil =>
    simp only [List.length_nil] at hlast
    omega
  | cons commit commits ih =>
    obtain ⟨hsequence, hrest⟩ := h
    by_cases hhere : last = sequence + 1
    · exact ⟨commit, List.mem_cons_self, hsequence.trans hhere.symm⟩
    · simp only [List.length_cons] at hlast
      obtain ⟨held, hmem, hheld⟩ := ih hrest (by omega) (by omega)
      exact ⟨held, List.mem_cons_of_mem _ hmem, hheld⟩

/-- What the materializer does: nothing, drop what it has, or take a batch. -/
theorem Core.materialize_cases (c : Core) :
    c.materialize = c ∨ c.materialize = { c with materializing := [] } ∨
      ∃ data commits taken next, c.backend = some data ∧ commits ⊆ c.materializing ∧
        data.Takes commits taken next ∧
        c.materialize =
          { c with
            backend := some next
            materializing := []
            materialized := c.materialized ++ [NodeSlot.highestOperation commits] } := by
  rw [Core.materialize]
  split
  · exact .inr (.inl rfl)
  cases hbackend : c.backend with
  | none => exact .inl rfl
  | some data =>
    dsimp only
    rcases applyMaterializedBatch_cases data (c.materializing.filter fun commit =>
        !c.suppressed && c.shouldMaterializeCommit commit) with
      ⟨err, herr⟩ | ⟨taken, next, hnext, takes⟩
    · left
      rw [herr]
      dsimp only
      rw [← hbackend]
    · right; right
      refine ⟨data, _, taken, next, rfl, List.filter_subset_self _, takes, ?_⟩
      rw [hnext]

end Craq.Storage
