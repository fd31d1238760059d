import Craq.Storage.Effects

/-! # Properties of the replica record that every move keeps

A property of replica records is framed when the moves a node makes without a crash keep it, those
that take a write or a forward or resume a recovered replica apart.  A framed property holds of the
record of a node, and of the copies of it that the owner has taken along, as long as the other moves
keep it too.  It is stable when it says that nothing is to be resumed.
-/

namespace Craq.Storage

/-- The records the commit loop passes through. -/
inductive NodeSlot.CommitsTo (record : ReplicaRecord) : ReplicaRecord → Prop where
  | refl : NodeSlot.CommitsTo record record
  | tail {limit : Nat} {progress next : NodeSlot.CommitProgress} :
      NodeSlot.CommitsTo record progress.record → NodeSlot.commitNext limit progress = some next →
      NodeSlot.CommitsTo record next.record

theorem NodeSlot.commitSequences_commitsTo {record : ReplicaRecord} (limit count : Nat)
    (progress : NodeSlot.CommitProgress) (h : NodeSlot.CommitsTo record progress.record) :
    NodeSlot.CommitsTo record (NodeSlot.commitSequences limit count progress).1.record := by
  induction count generalizing progress with
  | zero => exact h
  | succ count ih =>
    rw [NodeSlot.commitSequences]
    cases hnext : NodeSlot.commitNext limit progress with
    | none => exact h
    | some next => exact ih next (h.tail hnext)

theorem NodeSlot.CommitsTo.of_commitSequences {record : ReplicaRecord}
    {cache : Std.ExtTreeMap String (Option ObjectMetadata)} {limit count : Nat}
    {progress : NodeSlot.CommitProgress} {all : Bool}
    (h : NodeSlot.commitSequences limit count { record, committedMetadata := cache } =
      (progress, all)) : NodeSlot.CommitsTo record progress.record := by
  have commits := NodeSlot.commitSequences_commitsTo limit count
    { record, committedMetadata := cache } .refl
  rwa [h] at commits

/-- The moves of a node that neither crashes nor comes back keep the property, writes apart. -/
structure ReplicaRecord.Framed (P : ReplicaRecord → Prop) : Prop where
  empty : P {}
  confirmed : ∀ {record} (sequence), P record →
    P { record with highestUpstreamConfirmedSequence := sequence }
  advanced : ∀ {record} (sequence), P record →
    P { record with highestCommitTokenReceived := sequence }
  prepared : ∀ {record} (operation), P record → P (NodeSlot.preparedRecord record operation)
  committed : ∀ {limit} {progress next : NodeSlot.CommitProgress}, P progress.record →
    NodeSlot.commitNext limit progress = some next → P next.record
  interrupted : ∀ {record changed}, P record → NodeSlot.CommitsTo record changed →
    P changed → P (NodeSlot.withMapsOf record changed)
  pruned : ∀ {record} (highest), P record → P (recordPruneMaterializedOverlay record highest)
  released : ∀ {record} (count), P record → P { record with inFlightClientWrites := count }
  restated : ∀ {record} (state), P record → state ≠ .recovered →
    P { record with state, lastKnownState := state }
  synced : ∀ {record} (highest), P record → P (NodeSlot.reduceSyncedPredecessorState record highest)
  joining : ∀ assignment, P (NodeSlot.joiningRecord assignment)
  joined : ∀ assignment highest, P (NodeSlot.joinedRecord assignment highest)
  rebuilt : ∀ assignment highest, P (NodeSlot.rebuiltRecord assignment highest)
  reassigned : ∀ {record} (assignment), P record → P (NodeSlot.reassigned record assignment)

structure ReplicaRecord.Stable (P : ReplicaRecord → Prop) : Prop extends Framed P where
  live : ∀ {record}, P record → record.state ≠ .recovered
  submitted : ∀ {n : NodeSlot} {req current}, P n.record → n.Accepts req current →
    P (NodeSlot.sequenceWrite n.record (n.submittedOperation n.record req current) req.call)

theorem ReplicaRecord.Framed.commitsTo {P : ReplicaRecord → Prop} (framed : ReplicaRecord.Framed P)
    {record changed : ReplicaRecord} (h : P record) (commits : NodeSlot.CommitsTo record changed) :
    P changed := by
  induction commits with
  | refl => exact h
  | tail _ hnext ih => exact framed.committed ih hnext

/-- The write that the owner is about to sequence keeps the property. -/
def NodeSlot.TakesWrite (P : ReplicaRecord → Prop) (n : NodeSlot) (input : NodeInput) : Prop :=
  ∀ req current, input = .event (.submitWrite req) → n.Accepts req current →
    P (NodeSlot.sequenceWrite n.record (n.submittedOperation n.record req current) req.call)

/-- The forward that the owner is about to take keeps the property. -/
structure NodeSlot.TakesForward (P : ReplicaRecord → Prop) (n : NodeSlot) : Prop where
  aside : ∀ {req buffered}, n.tasks.head? = some (.forwardWrite req) → n.record.Serving →
    n.SetsAside → req.operation.sequence = n.record.nextSequence →
    reduceBufferFutureForward n.record req n.bufferLimits = .ok buffered → P buffered
  reduced : ∀ {req reduced action}, n.Feeds req →
    reduceForwardWrite n.record req n.bufferLimits = .ok ⟨reduced, action⟩ → P reduced

/-- What a recovered replica is resumed with has the property. -/
def NodeSlot.Resumes (P : ReplicaRecord → Prop) (n : NodeSlot) (input : NodeInput) (c : Core) :
    Prop :=
  ∀ assignment committed, n.resumption input = some (assignment, committed) →
    (c.record.state = .recovered ∧ c.resumes = [] ∨ n.core.resumes = assignment :: c.resumes) →
      P (NodeSlot.resumedRecord c.record assignment committed)

structure Core.Holds (P : ReplicaRecord → Prop) (c : Core) : Prop where
  record : P c.record
  copies : ∀ copy ∈ c.copies, P copy
  ready : ∀ copy ∈ c.ready, P copy

/-- The node goes on without a crash. -/
def NodeInput.Continues : NodeInput → Bool
  | .restart => false
  | _ => true

theorem Core.materialize_frame (c : Core) : c.materialize.record = c.record ∧
    c.materialize.copies = c.copies ∧ c.materialize.ready = c.ready ∧
      c.materialize.resumes = c.resumes := by
  rw [Core.materialize]
  repeat' split
  all_goals exact ⟨rfl, rfl, rfl, rfl⟩

section

variable {P : ReplicaRecord → Prop} {n : NodeSlot} {input : NodeInput} {c d : Core}

theorem Core.Holds.effect (framed : ReplicaRecord.Framed P) (writes : n.TakesWrite P input)
    (forwards : input = .event .task → n.TakesForward P) (resumed : n.Resumes P input c)
    (reopened : input = .restart → n.restart.core.Holds P) (start : n.core.Holds P)
    (h : c.Holds P) (effect : Effect n input c d) : d.Holds P := by
  cases effect with
  | carry copied submitted worked awaited answered resumed called =>
    refine ⟨h.record, ?_, ?_⟩
    · intro copy hmem
      rcases copied copy hmem with hheld | rfl
      · exact h.copies copy hheld
      · exact h.record
    · intro copy hmem
      rcases submitted copy hmem with hheld | ⟨rfl, -⟩ | ⟨hheld, -⟩
      · exact h.ready copy hheld
      · exact h.record
      · exact h.copies copy hheld
  | forget | exchange | await | answer | awaitTail | acknowledge | lookup | ask | drop | startRebuild
  | flushFailed | note | accept =>
    exact ⟨h.record, h.copies, h.ready⟩
  | flush => exact ⟨start.record, start.copies, start.ready⟩
  | confirmHead present first => exact ⟨framed.confirmed _ h.record, h.copies, h.ready⟩
  | commit same present positive token durable committed =>
    have commits := NodeSlot.CommitsTo.of_commitSequences committed
    refine ⟨?_, h.copies, h.ready⟩
    change P (NodeSlot.confirmedAtHead _ _)
    rw [NodeSlot.confirmedAtHead]
    split
    · exact framed.confirmed _ (framed.commitsTo h.record commits)
    · exact framed.commitsTo h.record commits
  | interrupt same present durable stopped =>
    have commits := NodeSlot.CommitsTo.of_commitSequences stopped
    exact ⟨framed.interrupted h.record commits (framed.commitsTo h.record commits), h.copies,
      h.ready⟩
  | raise submitted last behind =>
    exact ⟨framed.advanced _ (h.ready _ submitted), h.copies, h.ready⟩
  | prepare present reported => exact ⟨framed.prepared _ h.record, h.copies, h.ready⟩
  | advance taken due serving valid => exact ⟨framed.advanced _ h.record, h.copies, h.ready⟩
  | prune present applied => exact ⟨framed.pruned _ h.record, h.copies, h.ready⟩
  | submit taken accepts same => exact ⟨writes _ _ taken accepts, h.copies, h.ready⟩
  | release present => exact ⟨framed.released _ h.record, h.copies, h.ready⟩
  | putAside taken due same serving aside sequence ok =>
    rw [same] at serving sequence ok
    exact ⟨(forwards taken).aside due serving aside sequence ok, h.copies, h.ready⟩
  | buffer taken feeds same ok =>
    rw [same] at ok
    exact ⟨(forwards taken).reduced feeds ok, h.copies, h.ready⟩
  | stage taken feeds same ok =>
    rw [same] at ok
    exact ⟨(forwards taken).reduced feeds ok, h.copies, h.ready⟩
  | confirm taken returned present same behind =>
    exact ⟨framed.confirmed _ h.record, h.copies, h.ready⟩
  | sync => exact ⟨framed.synced _ h.record, h.copies, h.ready⟩
  | create => exact ⟨framed.joining _, h.copies, h.ready⟩
  | found => exact ⟨framed.joined _ _, h.copies, h.ready⟩
  | join => exact ⟨framed.joined _ _, h.copies, h.ready⟩
  | abandon | remove | vanish => exact ⟨framed.empty, h.copies, h.ready⟩
  | restate present next taken =>
    rename_i state
    have live : state ≠ .recovered := by
      rcases next with ⟨-, rfl⟩ | ⟨-, rfl⟩ <;> decide
    exact ⟨framed.restated _ h.record live, h.copies, h.ready⟩
  | reassign => exact ⟨framed.reassigned _ h.record, h.copies, h.ready⟩
  | resume resumes recovered same => exact ⟨resumed _ _ resumes recovered, h.copies, h.ready⟩
  | evict => exact ⟨framed.empty, List.forall_mem_nil _, List.forall_mem_nil _⟩
  | rebuild => exact ⟨framed.rebuilt _ _, h.copies, h.ready⟩
  | materialize =>
    obtain ⟨record, copies, ready, -⟩ := c.materialize_frame
    exact ⟨record ▸ h.record, copies ▸ h.copies, ready ▸ h.ready⟩
  | restart taken => exact reopened taken

end

structure Core.Carries (P : ReplicaRecord → Prop) (c : Core) : Prop where
  record : P c.record
  copies : ∀ copy ∈ c.copies, P copy
  ready : ∀ copy ∈ c.ready, P copy
  resumes : c.resumes = []

namespace Core.Carries

variable {P : ReplicaRecord → Prop} {n : NodeSlot} {input : NodeInput} {c d : Core}

theorem holds (h : c.Carries P) : c.Holds P :=
  ⟨h.record, h.copies, h.ready⟩

theorem effect (stable : ReplicaRecord.Stable P) (continues : input.Continues = true)
    (forwards : input = .event .task → n.TakesForward P) (start : n.core.Carries P)
    (h : c.Carries P) (effect : Effect n input c d) : d.Carries P := by
  have restarts : input ≠ .restart := by
    rintro rfl
    cases continues
  have resumed : n.Resumes P input c := by
    rintro assignment committed - (⟨hrecovered, -⟩ | hresumed)
    · exact absurd hrecovered (stable.live h.record)
    · rw [start.resumes] at hresumed
      cases hresumed
  obtain ⟨record, copies, ready⟩ := Core.Holds.effect stable.toFramed
    (fun _ _ _ accepts => stable.submitted start.record accepts) forwards resumed (fun taken =>
      absurd taken restarts) start.holds h.holds effect
  refine ⟨record, copies, ready, ?_⟩
  cases effect with
  | carry copied submitted worked awaited answered resumed called =>
    exact List.sublist_nil.mp (h.resumes ▸ resumed)
  | awaitTail taken recovered idle => exact absurd recovered (stable.live h.record)
  | evict => rfl
  | flush => exact start.resumes
  | materialize => exact c.materialize_frame.2.2.2.trans h.resumes
  | restart taken => exact absurd taken restarts
  | _ => exact h.resumes

theorem fresh (stable : ReplicaRecord.Stable P) (config : NodeConfig) :
    ({ config } : NodeSlot).core.Carries P :=
  ⟨stable.empty, List.forall_mem_nil _, List.forall_mem_nil _, rfl⟩

/-- A stable property of the record of a node and of its copies outlasts any input but a crash. -/
theorem take {next : NodeSlot} (stable : ReplicaRecord.Stable P) (continues : input.Continues = true)
    (forwards : input = .event .task → n.TakesForward P) (h : n.core.Carries P)
    (htake : n.take input = some next) : next.core.Carries P :=
  n.take_keeps htake h fun hstate hmove => effect stable continues forwards h hstate hmove

end Core.Carries

end Craq.Storage
