import Craq.Storage.Progress
import Craq.Storage.Repeat

/-! # A replica in service

A replica counts up to six sequences: what it has materialized, committed, prepared, been given a
commit token for, has heard its predecessor confirm, and will give out next.  While it stays in
service they stay in order, and between the committed sequence and the next one no prepared operation
is missing.
-/

namespace Craq.Storage

/-! ## The order -/

structure ReplicaRecord.Ordered (record : ReplicaRecord) : Prop where
  materialized : record.materializedCommittedSequence ≤ record.highestCommittedSequence
  token : record.highestCommittedSequence ≤ record.highestCommitTokenReceived
  prepared : record.highestCommittedSequence ≤ record.highestPreparedDurable
  next : record.highestPreparedDurable < record.nextSequence
  confirmed : record.highestUpstreamConfirmedSequence ≤ record.highestCommittedSequence
  covered : ∀ sequence, record.highestCommittedSequence < sequence →
    sequence < record.nextSequence → ∃ operation,
      record.preparedEntries[sequence]? = some operation ∧ operation.sequence = sequence

structure ReplicaRecord.Extends (record next : ReplicaRecord) (operation : WriteOperation) :
    Prop where
  given : operation.sequence = record.nextSequence
  state : next.state = record.state
  assignment : next.assignment = record.assignment
  materialized : next.materializedCommittedSequence = record.materializedCommittedSequence
  token : next.highestCommitTokenReceived = record.highestCommitTokenReceived
  prepared : next.highestPreparedDurable = record.highestPreparedDurable
  committed : next.highestCommittedSequence = record.highestCommittedSequence
  confirmed : next.highestUpstreamConfirmedSequence = record.highestUpstreamConfirmedSequence
  sequence : next.nextSequence = record.nextSequence + 1
  entries : next.preparedEntries = record.preparedEntries.insert operation.sequence operation

theorem ReplicaRecord.Extends.submitted (record : ReplicaRecord) (operation : WriteOperation)
    (call : Nat) (given : operation.sequence = record.nextSequence) :
    record.Extends (NodeSlot.sequenceWrite record operation call) operation :=
  ⟨given, rfl, rfl, rfl, rfl, rfl, rfl, rfl, rfl, rfl⟩

variable {record : ReplicaRecord}

theorem ReplicaRecord.Keeps.extends {reduced : ReplicaRecord} (h : record.Keeps)
    {req : ForwardWriteRequest} {limits : BufferLimits}
    (ok : reduceForwardWrite record req limits = .ok ⟨reduced, .apply⟩) :
    record.Extends reduced req.operation := by
  rcases Storage.reduceForwardWrite_cases ok with ⟨haction, -⟩ | ⟨haction, -⟩ | ⟨-, hsequence, rfl⟩
  · cases haction
  · cases haction
  · have hnew := h.not_staged hsequence.ge
    simp only [reduceStageForward, Std.ExtTreeMap.contains_eq_isSome_getElem?, hnew,
      Option.isSome_none, Bool.false_eq_true, if_false]
    exact ⟨hsequence, rfl, rfl, rfl, rfl, rfl, rfl, rfl, rfl, rfl⟩

namespace ReplicaRecord.Ordered

variable {record next : ReplicaRecord}

theorem congr (h : record.Ordered)
    (materialized : next.materializedCommittedSequence = record.materializedCommittedSequence)
    (token : record.highestCommitTokenReceived ≤ next.highestCommitTokenReceived)
    (prepared : next.highestPreparedDurable = record.highestPreparedDurable)
    (committed : next.highestCommittedSequence = record.highestCommittedSequence)
    (sequence : next.nextSequence = record.nextSequence)
    (confirmed : next.highestUpstreamConfirmedSequence ≤ record.highestCommittedSequence)
    (entries : next.preparedEntries = record.preparedEntries) : next.Ordered where
  materialized := by rw [materialized, committed]; exact h.materialized
  token := by rw [committed]; exact h.token.trans token
  prepared := by rw [committed, prepared]; exact h.prepared
  next := by rw [prepared, sequence]; exact h.next
  confirmed := by rw [committed]; exact confirmed
  covered := by rw [committed, sequence, entries]; exact h.covered

theorem joined (assignment : ReplicaAssignment) (highest : Nat) :
    (NodeSlot.joinedRecord assignment highest).Ordered where
  materialized := le_rfl
  token := le_rfl
  prepared := le_rfl
  next := Nat.lt_succ_self highest
  confirmed := le_rfl
  covered := by
    intro sequence hlow hhigh
    change highest < sequence at hlow
    change sequence < highest + 1 at hhigh
    omega

theorem rebuilt (assignment : ReplicaAssignment) (highest : Nat) :
    (NodeSlot.rebuiltRecord assignment highest).Ordered :=
  (joined assignment highest).congr rfl le_rfl rfl rfl rfl le_rfl rfl

theorem resumed (assignment : ReplicaAssignment) {committed : Nat}
    (materialized : record.materializedCommittedSequence ≤ committed) :
    (NodeSlot.resumedRecord record assignment committed).Ordered where
  materialized := materialized
  token := le_rfl
  prepared := le_rfl
  next := Nat.lt_succ_self committed
  confirmed := by
    change normalizeUpstreamConfirmedSequence _ ≤ committed
    rw [normalizeUpstreamConfirmedSequence]
    split
    · exact le_rfl
    split
    · exact le_rfl
    · rename_i hle
      exact Nat.not_lt.mp hle
  covered := by
    intro sequence hlow hhigh
    change committed < sequence at hlow
    change sequence < committed + 1 at hhigh
    omega

variable (h : record.Ordered)

include h

theorem committed {limit count : Nat} {cache : Std.ExtTreeMap String (Option ObjectMetadata)}
    {progress : NodeSlot.CommitProgress}
    (token : record.highestCommittedSequence + count ≤ record.highestCommitTokenReceived)
    (durable : record.highestCommittedSequence + count ≤ record.highestPreparedDurable)
    (hcommitted : NodeSlot.commitSequences limit count { record, committedMetadata := cache } =
      (progress, true)) :
    (NodeSlot.confirmedAtHead progress.record (record.highestCommittedSequence + count)).Ordered := by
  have ⟨through, hlast, hconfirmed⟩ := commitSequences_through hcommitted
  dsimp only at through hlast hconfirmed
  have ordered : progress.record.Ordered := by
    constructor
    case materialized =>
      have := h.materialized
      rw [through.materialized, hlast]
      omega
    case token => rw [through.token, hlast]; exact token
    case prepared => rw [through.prepared, hlast]; exact durable
    case next => rw [through.prepared, through.sequence]; exact h.next
    case confirmed =>
      have := h.confirmed
      rw [hconfirmed, hlast]
      omega
    case covered =>
      intro sequence hlow hhigh
      rw [through.sequence] at hhigh
      rw [through.entries]
      exact h.covered sequence (by omega) hhigh
  rw [NodeSlot.confirmedAtHead]
  split
  · exact ordered.congr rfl le_rfl rfl rfl rfl hlast.ge rfl
  · exact ordered

theorem preparedRecord {operation : WriteOperation} (hlt : operation.sequence < record.nextSequence) :
    (NodeSlot.preparedRecord record operation).Ordered where
  materialized := h.materialized
  token := by
    change _ ≤ if _ then _ else _
    split
    · exact h.token.trans (le_max_left _ _)
    · exact h.token
  prepared := h.prepared.trans (le_max_left _ _)
  next := max_lt h.next hlt
  confirmed := h.confirmed
  covered := h.covered

theorem prune {highest : Nat} (hle : highest ≤ record.highestCommittedSequence) :
    (recordPruneMaterializedOverlay record highest).Ordered where
  materialized := min_le_right _ _
  token := h.token
  prepared := h.prepared
  next := h.next
  confirmed := h.confirmed
  covered := by
    intro sequence hlow hhigh
    obtain ⟨operation, hentry, hsame⟩ := h.covered sequence hlow hhigh
    refine ⟨operation, ?_, hsame⟩
    change record.highestCommittedSequence < sequence at hlow
    have hkept : ¬ sequence ≤ highest := by omega
    rw [recordPruneMaterializedOverlay, Std.ExtTreeMap.getElem?_filter', hentry]
    simpa using hkept

theorem extend {operation : WriteOperation} (given' : record.Extends next operation) :
    next.Ordered where
  materialized := by rw [given'.materialized, given'.committed]; exact h.materialized
  token := by rw [given'.token, given'.committed]; exact h.token
  prepared := by rw [given'.prepared, given'.committed]; exact h.prepared
  next := by rw [given'.prepared, given'.sequence]; exact Nat.lt_succ_of_lt h.next
  confirmed := by rw [given'.confirmed, given'.committed]; exact h.confirmed
  covered := by
    intro place hlow hhigh
    rw [given'.entries, Lib.getElem?_insert_ite]
    split
    · rename_i hplace
      exact ⟨operation, rfl, hplace⟩
    · have hgiven := given'.given
      rw [given'.committed] at hlow
      rw [given'.sequence] at hhigh
      exact h.covered place hlow (by omega)

theorem synced {highest : Nat} (ahead : record.highestCommittedSequence < highest) :
    (NodeSlot.reduceSyncedPredecessorState record highest).Ordered := by
  have ⟨_, _, entries, sequence, prepared, token, committed, confirmed⟩ :=
    reduceSyncedPredecessorState_counters record highest
  have materialized := reduceSyncedPredecessorState_materialized record highest
  constructor
  case materialized => rw [materialized, committed]
  case token => rw [token, committed]
  case prepared => rw [prepared, committed]
  case next => rw [prepared, sequence]; exact lt_max_of_lt_right (Nat.lt_succ_self highest)
  case confirmed => rw [confirmed, committed]
  case covered =>
    intro place hlow hhigh
    rw [committed] at hlow
    rw [sequence] at hhigh
    rw [entries]
    exact h.covered place (by omega) (by omega)

theorem reassigned (assignment : ReplicaAssignment) :
    (NodeSlot.reassigned record assignment).Ordered := by
  have placed : (NodeSlot.withAssignment record assignment).Ordered := by
    refine h.congr rfl le_rfl rfl rfl rfl ?_ rfl
    change (if _ then _ else _) ≤ _
    split
    · exact le_rfl
    · exact h.confirmed
  have followed : (NodeSlot.followPredecessor record.assignment
      (NodeSlot.withAssignment record assignment)).Ordered := by
    rw [NodeSlot.followPredecessor]
    split
    · exact placed.congr rfl le_rfl rfl rfl rfl placed.confirmed rfl
    · exact placed
  rw [NodeSlot.reassigned, NodeSlot.followSuccessor]
  dsimp only
  split
  · exact followed
  split
  · exact followed.congr rfl le_rfl rfl rfl rfl followed.confirmed rfl
  · exact followed.congr rfl (le_max_left _ _) rfl rfl rfl followed.confirmed rfl

end ReplicaRecord.Ordered

/-- What is committed stays committed, and no sequence is given out again. -/
structure ReplicaRecord.Grows (record next : ReplicaRecord) : Prop where
  committed : record.highestCommittedSequence ≤ next.highestCommittedSequence
  sequence : record.nextSequence ≤ next.nextSequence

/-! ## What leaves a replica in service -/

def NodeInput.Stays : NodeInput → Bool
  | .restart => false
  | .event .evict => false
  | .event (.command .removeReplica) => false
  | .event (.command .dropRecoveredReplica) => false
  | _ => true

variable {input : NodeInput}

theorem NodeInput.Stays.continues (h : input.Stays = true) : input.Continues = true := by
  cases input with
  | restart => cases h
  | _ => rfl

/-- Without a successor a replica needs no commit token for what it has prepared. -/
def ReplicaRecord.Alone (record : ReplicaRecord) : Prop :=
  record.assignment.peers.successorNodeID = "" →
    record.highestPreparedDurable ≤ record.highestCommitTokenReceived

def SnapshotUse.Activates (use : SnapshotUse) : Prop :=
  ∃ plan, use = .activation plan

theorem NodeSlot.Fetched.awaited {n : NodeSlot} {use : SnapshotUse} {reply : Snapshot × Nat}
    (h : n.Fetched input use reply) : use.Activates ∨ ∃ source, (use, source) ∈ n.core.awaits := by
  cases h with
  | @snapshot use source rest reply awaited =>
    refine .inr ⟨source, ?_⟩
    simp only [NodeSlot.core, NodeSlot.coreWith, List.nil_append, awaited, List.flatMap_cons]
    exact List.mem_append_left _ List.mem_cons_self
  | catchup awaited => exact .inl ⟨_, rfl⟩

theorem NodeSlot.asks_activates {n : NodeSlot} {use : SnapshotUse} {source : String}
    (present : n.runtime.present = true) (live : n.record.state ≠ .recovered)
    (h : n.Asks record input use source) : use.Activates := by
  rw [NodeSlot.Asks.eq_def] at h
  split at h
  · rw [present] at h
    cases h.1
  · exact ⟨_, h.1⟩
  · rcases h.1 with habsent | hrecovered
    · rw [present] at habsent
      cases habsent
    · exact absurd hrecovered live
  · cases h

theorem ReplicaRecord.Alone.reassigned (h : record.Alone) (assignment : ReplicaAssignment) :
    (NodeSlot.reassigned record assignment).Alone := by
  rw [NodeSlot.reassigned, NodeSlot.followSuccessor]
  dsimp only
  split
  · rename_i hsame
    have followed : ∀ old, (NodeSlot.followPredecessor old
        (NodeSlot.withAssignment record assignment)).Alone ↔
          (NodeSlot.withAssignment record assignment).Alone := by
      intro old
      rw [NodeSlot.followPredecessor]
      split <;> rfl
    have placed : (NodeSlot.followPredecessor record.assignment
        (NodeSlot.withAssignment record assignment)).assignment = assignment := by
      rw [NodeSlot.followPredecessor]
      split <;> rfl
    rw [placed] at hsame
    simp only [NodeSlot.successorChanged, Bool.not_eq_true', Bool.or_eq_false_iff,
      decide_eq_false_iff_not, not_not] at hsame
    rw [followed]
    intro hlast
    exact h (hsame.1.2.trans hlast)
  split
  · rename_i hnamed
    exact fun hlast => absurd hlast hnamed
  · exact fun _ => le_max_right _ _

/-! ## The invariant -/

structure Core.Watermarked (c : Core) : Prop where
  present : c.present = true
  settled : c.record.state ≠ .pending
  ordered : c.record.Ordered
  named : c.record.Named
  alone : c.record.Alone
  copied : ∀ copy ∈ c.copies, copy.Alone
  ready : ∀ copy ∈ c.ready, copy.Alone
  intended : ∀ commit ∈ c.prepares, commit.operation.sequence < c.record.nextSequence
  reported : ∀ operation ∈ c.prepared, operation.sequence < c.record.nextSequence
  submitted : ∀ commit ∈ c.submitted,
    commit.operation.sequence ≤ c.record.highestCommittedSequence
  materializing : ∀ commit ∈ c.materializing,
    commit.operation.sequence ≤ c.record.highestCommittedSequence
  materialized : ∀ height ∈ c.materialized, height ≤ c.record.highestCommittedSequence
  asked : ∀ sequence ∈ c.asked, sequence ≤ c.record.highestCommittedSequence
  awaits : ∀ awaited ∈ c.awaits, awaited.1.Activates
  answers : ∀ answer ∈ c.answers, answer.1.Activates

namespace Core.Watermarked

variable {n : NodeSlot} {input : NodeInput} {c d : Core}

section

variable (h : c.Watermarked)

include h

theorem set (settled : record.state ≠ .pending) (ordered : record.Ordered) (named : record.Named)
    (alone : record.Alone) (sequence : c.record.nextSequence ≤ record.nextSequence)
    (committed : c.record.highestCommittedSequence ≤ record.highestCommittedSequence) :
    (c.set record).Watermarked where
  present := rfl
  settled := settled
  ordered := ordered
  named := named
  alone := alone
  copied := h.copied
  ready := h.ready
  intended := fun commit hmem => (h.intended commit hmem).trans_le sequence
  reported := fun operation hmem => (h.reported operation hmem).trans_le sequence
  submitted := fun commit hmem => (h.submitted commit hmem).trans committed
  materializing := fun commit hmem => (h.materializing commit hmem).trans committed
  materialized := fun height hmem => (h.materialized height hmem).trans committed
  asked := fun place hmem => (h.asked place hmem).trans committed
  awaits := h.awaits
  answers := h.answers

theorem keep (state : record.state = c.record.state)
    (assignment : record.assignment = c.record.assignment)
    (materialized : record.materializedCommittedSequence = c.record.materializedCommittedSequence)
    (token : c.record.highestCommitTokenReceived ≤ record.highestCommitTokenReceived)
    (prepared : record.highestPreparedDurable = c.record.highestPreparedDurable)
    (committed : record.highestCommittedSequence = c.record.highestCommittedSequence)
    (sequence : record.nextSequence = c.record.nextSequence)
    (confirmed : record.highestUpstreamConfirmedSequence ≤ c.record.highestCommittedSequence)
    (entries : record.preparedEntries = c.record.preparedEntries) : (c.set record).Watermarked := by
  have ordered := h.ordered.congr materialized token prepared committed sequence confirmed entries
  have named : record.Named := by rw [ReplicaRecord.Named, entries]; exact h.named
  refine h.set (state ▸ h.settled) ordered named ?_ sequence.ge committed.ge
  intro hlast
  rw [assignment] at hlast
  rw [prepared]
  exact (h.alone hlast).trans token

theorem commit {limit count : Nat} {progress : NodeSlot.CommitProgress}
    (token : c.record.highestCommittedSequence + count ≤ c.record.highestCommitTokenReceived)
    (durable : c.record.highestCommittedSequence + count ≤ c.record.highestPreparedDurable)
    (committed : NodeSlot.commitSequences limit count
      { record := c.record, committedMetadata := c.cache } = (progress, true)) :
    (c.commit progress (c.record.highestCommittedSequence + count)).Watermarked := by
  obtain ⟨through, hlast⟩ := confirmedAtHead_through committed
  have ordered := h.ordered.committed token durable committed
  rw [Core.commit]
  generalize NodeSlot.confirmedAtHead progress.record
    (c.record.highestCommittedSequence + count) = record at through hlast ordered ⊢
  have alone : record.Alone := by
    intro hlone
    rw [through.prepared, through.token]
    exact h.alone (through.assignment ▸ hlone)
  have named : record.Named := by rw [ReplicaRecord.Named, through.entries]; exact h.named
  have moved := h.set (through.state ▸ h.settled) ordered named alone through.sequence.ge (by omega)
  refine { moved with submitted := ?_ }
  intro commit hmem
  rcases List.mem_append.mp hmem with hheld | hnew
  · exact moved.submitted commit hheld
  · obtain ⟨operation, hprepared, rfl⟩ := List.mem_map.mp hnew
    exact (named.le_of_mem_preparedOperations hprepared).trans hlast.ge

variable {operation : WriteOperation}

theorem prepare (reported : operation ∈ c.prepared) :
    (c.set (NodeSlot.preparedRecord c.record operation)).Watermarked := by
  have ordered := h.ordered.preparedRecord (h.reported operation reported)
  refine h.set h.settled ordered h.named ?_ le_rfl le_rfl
  intro hlone
  change c.record.assignment.peers.successorNodeID = "" at hlone
  change max _ _ ≤ if _ then _ else _
  rw [if_pos hlone]
  exact max_le_max (h.alone hlone) le_rfl

theorem prune {highest : Nat} (applied : highest ∈ c.materialized) :
    (c.set (recordPruneMaterializedOverlay c.record highest)).Watermarked := by
  have ordered := h.ordered.prune (h.materialized highest applied)
  refine h.set h.settled ordered ?_ h.alone le_rfl le_rfl
  intro sequence operation hentry
  rw [recordPruneMaterializedOverlay, Std.ExtTreeMap.getElem?_filter'] at hentry
  exact h.named sequence operation (Option.filter_eq_some_iff.mp hentry).1

theorem extend (given' : c.record.Extends record operation) :
    (c.set record).Watermarked ∧ operation.sequence < record.nextSequence := by
  have hnext : operation.sequence < record.nextSequence := by
    rw [given'.given, given'.sequence]
    exact Nat.lt_succ_self _
  refine ⟨h.set (given'.state ▸ h.settled) (h.ordered.extend given') ?_ ?_ ?_ ?_, hnext⟩
  · intro place held hheld
    rw [given'.entries, Lib.getElem?_insert_ite] at hheld
    split at hheld
    · rename_i hplace
      cases hheld
      exact hplace
    · exact h.named place held hheld
  · intro hlone
    rw [given'.prepared, given'.token]
    exact h.alone (given'.assignment ▸ hlone)
  · rw [given'.sequence]
    exact Nat.le_succ _
  · exact given'.committed.ge

theorem ask (given : operation.sequence < c.record.nextSequence) (record : ReplicaRecord) :
    (c.ask operation record).Watermarked := by
  refine { h with intended := ?_ }
  intro commit hmem
  rcases List.mem_append.mp hmem with hheld | hnew
  · exact h.intended commit hheld
  · rw [List.mem_singleton.mp hnew]
    exact given

theorem sync {snapshot : Snapshot} {highest : Nat}
    (ahead : c.record.highestCommittedSequence < highest) :
    (c.sync snapshot highest).Watermarked := by
  have ⟨_, state, entries, sequence, prepared, token, committed, _⟩ :=
    reduceSyncedPredecessorState_counters c.record highest
  have moved : (c.set (NodeSlot.reduceSyncedPredecessorState c.record highest)).Watermarked := by
    refine h.set (state ▸ h.settled) (h.ordered.synced ahead) ?_ ?_ ?_ ?_
    · rw [ReplicaRecord.Named, entries]
      exact h.named
    · intro _
      rw [prepared, token]
    · rw [sequence]
      exact le_max_left _ _
    · rw [committed]
      exact ahead.le
  exact { moved with materializing := List.forall_mem_nil _ }

theorem accept (count : Nat) :
    Core.Watermarked { c with
      submitted := c.submitted.drop count
      materializing :=
        if c.suppressed then c.materializing else c.materializing ++ c.submitted.take count } := by
  refine { h with
    submitted := fun commit hmem => h.submitted commit (List.mem_of_mem_drop hmem)
    materializing := ?_ }
  intro commit hmem
  change commit ∈ if c.suppressed then c.materializing else _ at hmem
  split at hmem
  · exact h.materializing commit hmem
  · rcases List.mem_append.mp hmem with hheld | hnew
    · exact h.materializing commit hheld
    · exact h.submitted commit (List.mem_of_mem_take hnew)

theorem materialize : c.materialize.Watermarked := by
  rcases c.materialize_cases with hsame | hdropped |
    ⟨data, commits, taken, next, hdata, held, takes, htaken⟩
  · rw [hsame]
    exact h
  · rw [hdropped]
    exact { h with materializing := List.forall_mem_nil _ }
  rw [htaken]
  refine { h with materializing := List.forall_mem_nil _, materialized := ?_ }
  intro place hmem
  rcases List.mem_append.mp hmem with hheld | hnew
  · exact h.materialized place hheld
  · rw [List.mem_singleton.mp hnew]
    exact highestOperation_le fun commit hmem => h.materializing commit (held hmem)

end

theorem effect (stays : input.Stays = true) (start : n.core.Watermarked)
    (keeps : n.core.Carries ReplicaRecord.Keeps)
    (h : c.Watermarked ∧ c.Carries ReplicaRecord.Keeps) (effect : Effect n input c d) :
    d.Watermarked := by
  obtain ⟨h, kept⟩ := h
  cases effect with
  | carry copied submitted worked awaited answered resumed called =>
    refine { h with
      copied := ?_
      ready := ?_
      asked := fun sequence hmem => h.asked sequence (called hmem)
      awaits := fun use hmem => h.awaits use (awaited hmem)
      answers := fun answer hmem => h.answers answer (answered hmem) }
    · intro copy hmem
      rcases copied copy hmem with hheld | rfl
      · exact h.copied copy hheld
      · exact h.alone
    · intro copy hmem
      rcases submitted copy hmem with hheld | ⟨rfl, -⟩ | ⟨hheld, -⟩
      · exact h.ready copy hheld
      · exact h.alone
      · exact h.copied copy hheld
  | forget reported applied worked =>
    exact { h with
      reported := fun operation hmem => h.reported operation (reported hmem)
      materialized := fun height hmem => h.materialized height (applied hmem) }
  | await asks awaited =>
    refine { h with awaits := ?_ }
    intro use hmem
    rcases List.mem_cons.mp (awaited hmem) with rfl | hheld
    · exact NodeSlot.asks_activates start.present keeps.record.live asks
    · exact h.awaits use hheld
  | answer served answered =>
    refine { h with answers := ?_ }
    intro answer hmem
    rcases List.mem_cons.mp (answered hmem) with rfl | hheld
    · rcases served.awaited with hactivates | ⟨source, hawaited⟩
      · exact hactivates
      · exact start.awaits _ hawaited
    · exact h.answers answer hheld
  | awaitTail taken recovered idle => exact absurd recovered kept.record.live
  | confirmHead present first => exact h.keep rfl rfl rfl le_rfl rfl rfl rfl le_rfl rfl
  | acknowledge present =>
    refine { h with asked := ?_ }
    intro sequence hmem
    rcases List.mem_append.mp hmem with hheld | hnew
    · exact h.asked sequence hheld
    · exact (List.mem_singleton.mp hnew).le
  | commit same present positive token durable committed => exact h.commit token durable committed
  | interrupt same present durable stopped =>
    exact { h with ordered := h.ordered.congr rfl le_rfl rfl rfl rfl h.ordered.confirmed rfl }
  | raise submitted last behind =>
    have := h.ready _ submitted last
    omega
  | prepare present reported => exact h.prepare reported
  | advance taken due serving valid =>
    exact h.keep rfl rfl rfl (le_max_left _ _) rfl rfl rfl h.ordered.confirmed rfl
  | prune present applied => exact h.prune applied
  | exchange | lookup | startRebuild | note => exact { h with }
  | submit taken accepts same =>
    rename_i req current
    rw [← same]
    exact (h.extend (.submitted c.record (n.submittedOperation c.record req current) req.call rfl)).1
  | ask taken accepts same =>
    refine h.ask ?_ _
    rw [same]
    exact Nat.lt_succ_self _
  | release present => exact h.keep rfl rfl rfl le_rfl rfl rfl rfl h.ordered.confirmed rfl
  | putAside taken due same serving aside sequence ok =>
    obtain ⟨buffered, rfl⟩ := reduceBufferFutureForward_eq ok
    exact h.keep rfl rfl rfl le_rfl rfl rfl rfl h.ordered.confirmed rfl
  | buffer taken feeds same ok =>
    rcases reduceForwardWrite_cases ok with ⟨haction, -⟩ | ⟨-, -, hok⟩ | ⟨haction, -⟩
    · cases haction
    · obtain ⟨buffered, rfl⟩ := reduceBufferFutureForward_eq hok
      exact h.keep rfl rfl rfl le_rfl rfl rfl rfl h.ordered.confirmed rfl
    · cases haction
  | stage taken feeds same ok =>
    obtain ⟨extended, hnext⟩ := h.extend (kept.record.extends ok)
    exact extended.ask hnext _
  | confirm taken returned present same behind before =>
    -- The call carries what was committed when it was made.
    rename_i req nodeID target
    have asked : req.committedThrough ∈ n.core.asked := by
      refine List.mem_flatMap.mpr ⟨_, List.mem_of_getElem? returned, ?_⟩
      exact List.mem_singleton_self _
    have hle := start.asked _ asked
    change _ ≤ n.record.highestCommittedSequence at hle
    rw [← before] at hle
    exact h.keep rfl rfl rfl le_rfl rfl rfl rfl hle rfl
  | sync answered same present version node target ahead stored => exact h.sync ahead
  | drop missing => exact { h with materializing := List.forall_mem_nil _ }
  | create taken absent missing =>
    have := h.present
    simp [absent] at this
  | found taken same => exact absurd (congrArg ReplicaRecord.state same) h.settled
  | join answered =>
    obtain ⟨plan, hplan⟩ := start.answers _ (NodeSlot.delivered_mem answered)
    cases hplan
  | abandon due =>
    rcases due with ⟨source, reply, due⟩ | ⟨-, absent⟩
    · obtain ⟨plan, hplan⟩ := start.awaits _ (NodeSlot.mem_awaits due)
      cases hplan
    · exact absurd (start.present.symm.trans absent) (by decide)
  | restate present next taken =>
    rename_i state
    have settled : state ≠ .pending := by
      rcases next with ⟨-, rfl⟩ | ⟨-, rfl⟩ <;> decide
    have ordered : { c.record with state, lastKnownState := state }.Ordered :=
      h.ordered.congr rfl le_rfl rfl rfl rfl h.ordered.confirmed rfl
    exact { h.set settled ordered h.named h.alone le_rfl le_rfl with }
  | reassign taken same present other =>
    rename_i assignment
    obtain ⟨state, entries, sequence, prepared, committed⟩ := reassigned_counters c.record assignment
    have named : (NodeSlot.reassigned c.record assignment).Named := by
      rw [ReplicaRecord.Named, entries]
      exact h.named
    exact { h.set (state ▸ h.settled) (h.ordered.reassigned assignment) named
      (h.alone.reassigned assignment) sequence.ge committed.ge with }
  | resume resumes recovered same =>
    rcases recovered with ⟨hrecovered, -⟩ | hresumed
    · exact absurd hrecovered kept.record.live
    · rw [keeps.resumes] at hresumed
      cases hresumed
  | remove taken =>
    rcases taken with rfl | rfl <;> cases stays
  | vanish taken | evict taken =>
    rw [taken] at stays
    cases stays
  | rebuild answered =>
    obtain ⟨plan, hplan⟩ := start.answers _ (NodeSlot.delivered_mem answered)
    cases hplan
  | flush taken first reported worked =>
    have intended := start.intended
    rw [first] at intended
    obtain ⟨hfirst, hrest⟩ := List.forall_mem_cons.mp intended
    refine { start with intended := hrest, reported := ?_ }
    intro operation hmem
    rcases List.mem_cons.mp (reported hmem) with rfl | hheld
    · exact hfirst
    · exact start.reported operation hheld
  | flushFailed first worked =>
    refine { h with intended := ?_ }
    intro commit hmem
    exact h.intended commit (first ▸ List.mem_cons_of_mem _ hmem)
  | accept count => exact h.accept count
  | materialize => exact h.materialize
  | restart taken =>
    rw [taken] at stays
    cases stays

/-- A move neither takes a commit back nor gives a sequence out again. -/
theorem grows (stays : input.Stays = true) (start : n.core.Watermarked)
    (keeps : n.core.Carries ReplicaRecord.Keeps)
    (h : c.Watermarked ∧ c.Carries ReplicaRecord.Keeps) (move : Effect n input c d) :
    c.record.Grows d.record := by
  have after := effect stays start keeps h move
  obtain ⟨h, kept⟩ := h
  cases move with
  | commit same present positive token durable committed =>
    obtain ⟨through, height⟩ := confirmedAtHead_through committed
    exact ⟨(Nat.le_add_right _ _).trans_eq height.symm, through.sequence.ge⟩
  | raise submitted last behind =>
    have := h.ready _ submitted last
    omega
  | submit taken accepts same => exact same ▸ ⟨le_rfl, Nat.le_succ _⟩
  | putAside taken due same serving aside sequence ok =>
    obtain ⟨buffered, rfl⟩ := reduceBufferFutureForward_eq ok
    exact ⟨le_rfl, le_rfl⟩
  | buffer taken feeds same ok | stage taken feeds same ok =>
    rcases reduceForwardWrite_cases ok with ⟨-, rfl⟩ | ⟨-, -, hok⟩ | ⟨-, -, rfl⟩
    · exact ⟨le_rfl, le_rfl⟩
    · obtain ⟨buffered, rfl⟩ := reduceBufferFutureForward_eq hok
      exact ⟨le_rfl, le_rfl⟩
    · change c.record.Grows (reduceStageForward c.record _)
      rw [reduceStageForward]
      dsimp only
      split
      · exact ⟨le_rfl, le_rfl⟩
      · exact ⟨le_rfl, Nat.le_succ _⟩
  | sync answered same present version node target ahead stored =>
    obtain ⟨-, -, -, sequence, -, -, committed, -⟩ :=
      reduceSyncedPredecessorState_counters c.record _
    exact ⟨ahead.le.trans committed.ge, (le_max_left _ _).trans sequence.ge⟩
  | reassign taken same present other =>
    obtain ⟨-, -, sequence, -, committed⟩ := reassigned_counters c.record _
    exact ⟨committed.ge, sequence.ge⟩
  | materialize =>
    rcases c.materialize_cases with heq | heq | ⟨_, _, _, _, -, -, -, heq⟩ <;> rw [heq] <;>
      exact ⟨le_rfl, le_rfl⟩
  -- The other records are those of a replica that does not serve.
  | create => exact absurd rfl after.settled
  | found taken same => exact absurd (congrArg ReplicaRecord.state same) h.settled
  | abandon | remove | vanish | evict => cases after.present
  | join answered | rebuild answered =>
    obtain ⟨plan, hplan⟩ := start.answers _ (NodeSlot.delivered_mem answered)
    cases hplan
  | resume resumes recovered same =>
    rcases recovered with ⟨hrecovered, -⟩ | hresumed
    · exact absurd hrecovered kept.record.live
    · rw [keeps.resumes] at hresumed
      cases hresumed
  | restart taken =>
    rw [taken] at stays
    cases stays
  | _ => exact ⟨le_rfl, le_rfl⟩

end Core.Watermarked

namespace NodeSlot

variable {n next : NodeSlot} {input : NodeInput}

theorem take_watermarked (stays : input.Stays = true) (htake : n.take input = some next)
    (start : n.core.Watermarked) (keeps : n.core.Carries ReplicaRecord.Keeps) :
    next.core.Watermarked ∧ n.record.Grows next.record := by
  let Good := fun c : Core =>
    (c.Watermarked ∧ c.Carries ReplicaRecord.Keeps) ∧ n.record.Grows c.record
  have good : Good next.core := by
    have first : Good n.core := ⟨⟨start, keeps⟩, le_rfl, le_rfl⟩
    refine n.take_keeps htake first ?_
    rintro c d ⟨kept, grown⟩ move
    have more := Core.Watermarked.grows stays start keeps kept move
    refine ⟨⟨.effect stays start keeps kept move, ?_⟩, grown.committed.trans more.committed,
      grown.sequence.trans more.sequence⟩
    exact .effect ReplicaRecord.keeps_stable (NodeInput.Stays.continues stays)
      (fun _ => keeps_takesForward keeps.record) keeps kept.2 move
  exact ⟨good.1.1, good.2⟩

end NodeSlot

end Craq.Storage
