import Craq.Backend.Layout

/-! # The two backends answer alike

Every call keeps the two stores in step, with two exceptions.  Of a batch that fails after its first
commit the backend in memory keeps the commits before the one that failed.  A time outside the years
0 to 9999 is refused by the database alone.
-/

namespace Craq.Backend

open Storage (CommittedObject ObjectMetadata OperationKind Snapshot Error committedJson
  exists_committedJson)
open Lib (Bytes KeyValue Json jsonBytes encodeUint64 decodeUint64? textBytes)

variable {backend : InMemoryBackend} {db : BadgerBackend}

/-! ## Writing one replica -/

/-- The database after some writes to one slot: what it holds there is the replica, and every other
slot is as it was in `base`. -/
structure Written (base : BadgerBackend) (slot : Int64) (replica : ReplicaData)
    (db : BadgerBackend) : Prop where
  own : ∀ part : Part, db[part.bytes slot]?.map some = replica.value part
  others : ∀ (other : Int64) (part : Part), slot ≠ other →
    db[part.bytes other]? = base[part.bytes other]?
  keyed : Keyed db

theorem Represents.written {slot : Int64} {replica : ReplicaData} (h : Represents backend db)
    (hreplica : backend[slot]? = some replica) : Written db slot replica db where
  own part := by
    rw [h.lookup, hreplica]
    rfl
  others _ _ _ := rfl
  keyed := h.keyed

theorem Represents.replace {slot : Int64} {replica : ReplicaData} {written : BadgerBackend}
    (h : Represents backend db) (writes : Written db slot replica written) :
    Represents (backend.insert slot replica) written where
  keyed := writes.keyed
  lookup other part := by
    rw [Lib.getElem?_insert_ite]
    by_cases hslot : slot = other
    · subst hslot
      rw [if_pos rfl, writes.own]
      rfl
    · rw [if_neg hslot, writes.others other part hslot, h.lookup]

namespace Written

variable {base : BadgerBackend} {slot : Int64} {replica : ReplicaData}
  (h : Written base slot replica db)
include h

variable (sequence : UInt64) {next : ReplicaData}

/-- A write that gives the touched parts of the slot one value and leaves all else alone. -/
theorem edit {edited : BadgerBackend} {touched : Part → Prop} [DecidablePred touched]
    {value : Option Bytes} (keyed : Keyed edited)
    (lookup : ∀ (other : Int64) (held : Part), edited[held.bytes other]? =
      if slot = other ∧ touched held then value else db[held.bytes other]?)
    (written : ∀ held, touched held → next.value held = value.map some)
    (kept : ∀ held, ¬touched held → next.value held = replica.value held) :
    Written base slot next edited where
  own held := by
    rw [lookup]
    by_cases htouched : touched held
    · rw [if_pos ⟨rfl, htouched⟩, written held htouched]
    · rw [if_neg fun both => htouched both.2, h.own, kept held htouched]
  others other held hslot := by
    rw [lookup, if_neg fun both => hslot both.1]
    exact h.others other held hslot
  keyed := keyed

theorem insert (part : Part) {value : Bytes} (written : next.value part = some (some value))
    (kept : ∀ held, part ≠ held → next.value held = replica.value held) :
    Written base slot next (db.insert (part.bytes slot) value) :=
  h.edit (h.keyed.insert slot part value) (fun _ _ => lookup_insert ..)
    (fun _ same => same ▸ written) kept

theorem erase (part : Part) (written : next.value part = none)
    (kept : ∀ held, part ≠ held → next.value held = replica.value held) :
    Written base slot next (db.erase (part.bytes slot)) :=
  h.edit (h.keyed.erase _) (fun _ _ => lookup_erase ..) (fun _ same => same ▸ written) kept

theorem deleteStem {letter : UInt8}
    (cleared : ∀ held : Part, letter = held.letter → next.value held = none)
    (kept : ∀ held : Part, letter ≠ held.letter → next.value held = replica.value held) :
    Written base slot next (KeyValue.deleteStem db (letter :: encodeSlot slot)) :=
  h.edit (h.keyed.deleteStem _) (fun _ _ => lookup_deleteStem ..) cleared kept

theorem highest :
    Written base slot { replica with highestCommitted := sequence }
      (db.insert (replicaMetaKey slot) (encodeUint64 sequence)) := by
  refine h.insert .highest rfl ?_
  intro held hpart
  cases held with
  | highest => exact absurd rfl hpart
  | _ => rfl

theorem upstream :
    Written base slot { replica with highestUpstreamConfirmed := sequence }
      (db.insert (replicaUpstreamMetaKey slot) (encodeUint64 sequence)) := by
  refine h.insert .upstream rfl ?_
  intro held hpart
  cases held with
  | upstream => exact absurd rfl hpart
  | _ => rfl

theorem put (key : String) {object : CommittedObject} {json : Json}
    (hjson : committedJson object = some json) :
    Written base slot { replica with committed := replica.committed.insert key object }
      (db.insert (committedKey slot key) (jsonBytes json)) := by
  refine h.insert (.committed key) ?_ ?_
  · simp [ReplicaData.value, hjson]
  · intro held hpart
    cases held with
    | committed other =>
      have hkey : key ≠ other := fun heq => hpart (congrArg Part.committed heq)
      simp [ReplicaData.value, Lib.getElem?_insert_ite, hkey]
    | _ => rfl

theorem remove (key : String) :
    Written base slot { replica with committed := replica.committed.erase key }
      (db.erase (committedKey slot key)) := by
  refine h.erase (.committed key) ?_ ?_
  · simp [ReplicaData.value]
  · intro held hpart
    cases held with
    | committed other =>
      have hkey : key ≠ other := fun heq => hpart (congrArg Part.committed heq)
      simp [ReplicaData.value, Lib.getElem?_erase_ite, hkey]
    | _ => rfl

theorem stage {operation : StagedOperation} {json : Json} (hjson : stagedJson operation = some json) :
    Written base slot { replica with staged := replica.staged.insert sequence operation }
      (db.insert (stagedKey slot sequence) (jsonBytes json)) := by
  refine h.insert (.staged sequence) ?_ ?_
  · simp [ReplicaData.value, hjson]
  · intro held hpart
    cases held with
    | staged other =>
      have hsequence : sequence ≠ other := fun heq => hpart (congrArg Part.staged heq)
      simp [ReplicaData.value, Lib.getElem?_insert_ite, hsequence]
    | _ => rfl

theorem unstage :
    Written base slot { replica with staged := replica.staged.erase sequence }
      (db.erase (stagedKey slot sequence)) := by
  refine h.erase (.staged sequence) ?_ ?_
  · simp [ReplicaData.value]
  · intro held hpart
    cases held with
    | staged other =>
      have hsequence : sequence ≠ other := fun heq => hpart (congrArg Part.staged heq)
      simp [ReplicaData.value, Lib.getElem?_erase_ite, hsequence]
    | _ => rfl

theorem clearCommitted :
    Written base slot { replica with committed := ∅ }
      (KeyValue.deleteStem db (committedStem slot)) := by
  refine h.deleteStem ?_ ?_
  · intro held hletter
    obtain ⟨key, rfl⟩ := Part.isCommitted_iff.mp hletter
    simp [ReplicaData.value]
  · intro held hletter
    cases held with
    | committed key => exact absurd rfl hletter
    | _ => rfl

theorem clearStaged :
    Written base slot { replica with staged := ∅ }
      (KeyValue.deleteStem db (stagedStem slot)) := by
  refine h.deleteStem ?_ ?_
  · intro held hletter
    obtain ⟨sequence, rfl⟩ := Part.isStaged_iff.mp hletter
    simp [ReplicaData.value]
  · intro held hletter
    cases held with
    | staged sequence => exact absurd rfl hletter
    | _ => rfl

theorem install (empty : replica.committed = ∅) {snap : Snapshot} (writable : AllWritable snap) :
    Written base slot { replica with committed := snap }
      (db.insertMany (encodedEntries slot snap)) where
  own held := by
    cases held with
    | committed key =>
      rw [lookup_install_committed writable, h.own]
      simp [ReplicaData.value, empty]
    | highest | upstream | staged sequence => rw [lookup_install_other (by simp), h.own]; rfl
  others other held hslot := by
    rw [lookup_install_other fun key both => hslot both.1]
    exact h.others other held hslot
  keyed := h.keyed.install

theorem commit (sequence upstream : UInt64) (operation : StagedOperation)
    (writable : operation.kind = .put → operation.metadata.Writable) :
    ∃ written, db.writeCommit slot sequence upstream operation = .ok written ∧
      Written base slot (replica.commit sequence upstream operation) written := by
  rw [ReplicaData.commit, BadgerBackend.writeCommit, BadgerBackend.writeObject]
  cases hkind : operation.kind with
  | put =>
    have hmetadata : (⟨operation.value, operation.metadata⟩ : CommittedObject).metadata.Writable :=
      writable hkind
    obtain ⟨json, hjson⟩ := exists_committedJson hmetadata
    rw [hjson]
    exact ⟨_, rfl, (((h.put _ hjson).unstage sequence).highest sequence).upstream upstream⟩
  | delete =>
    exact ⟨_, rfl, (((h.remove _).unstage sequence).highest sequence).upstream upstream⟩

end Written

/-! ## Calls that change one replica -/

/-- The two computations fail alike or reach stores that are in step. -/
def Agree : Except Error InMemoryBackend → Except Error BadgerBackend → Prop
  | .ok backend, .ok db => Represents backend db
  | .error err, .error other => err = other
  | _, _ => False

/-- The answers are the same and the stores are in step. -/
structure InStep (first : InMemoryBackend × Except Error Reply)
    (second : BadgerBackend × Except Error Reply) : Prop where
  reply : first.2 = second.2
  represents : Represents first.1 second.1

theorem Represents.settle {first : Except Error InMemoryBackend}
    {second : Except Error BadgerBackend} (h : Represents backend db)
    (agree : Agree first second) : InStep (settle backend first) (settle db second) := by
  cases first with
  | ok next =>
    cases second with
    | ok written => exact ⟨rfl, agree⟩
    | error err => exact agree.elim
  | error err =>
    cases second with
    | ok written => exact agree.elim
    | error other =>
      have same : err = other := agree
      exact ⟨congrArg Except.error same, h⟩

namespace Represents

variable (h : Represents backend db)
include h

theorem bind_replica {slot : Int64} {first : ReplicaData → Except Error InMemoryBackend}
    {second : UInt64 → Except Error BadgerBackend}
    (found : ∀ replica, backend[slot]? = some replica →
      Agree (first replica) (second replica.highestCommitted)) :
    Agree (backend.replica slot >>= first) (db.highestCommittedSequence slot >>= second) := by
  rw [h.highestCommittedSequence, InMemoryBackend.replica]
  cases hreplica : backend[slot]? with
  | none => rfl
  | some replica => exact found replica hreplica

theorem replaces {slot : Int64} {next : ReplicaData → ReplicaData}
    {write : UInt64 → BadgerBackend}
    (writes : ∀ replica, Written db slot replica db →
      Written db slot (next replica) (write replica.highestCommitted)) :
    Agree (backend.replica slot >>= fun replica => .ok (backend.insert slot (next replica)))
      (db.highestCommittedSequence slot >>= fun highest => .ok (write highest)) := by
  apply h.bind_replica
  intro replica hreplica
  exact h.replace (writes replica (h.written hreplica))

variable (slot : Int64)

theorem createReplica : Agree (backend.createReplica slot) (db.createReplica slot) := by
  rw [InMemoryBackend.createReplica, BadgerBackend.createReplica]
  cases hreplica : backend[slot]? with
  | some replica =>
    rw [h.highest_found hreplica]
    rfl
  | none =>
    rw [h.highest_missing hreplica]
    refine h.replace (Written.mk ?_ ?_ ?_)
    · intro part
      have missing := h.lookup slot part
      rw [hreplica, Option.bind_none, Option.map_eq_none_iff] at missing
      rw [replicaMetaKey_eq, replicaUpstreamMetaKey_eq, lookup_insert, lookup_insert, missing]
      cases part <;> simp [ReplicaData.value]
    · intro other part hslot
      rw [replicaMetaKey_eq, replicaUpstreamMetaKey_eq, lookup_insert, lookup_insert]
      simp [hslot]
    · exact (h.keyed.insert slot .highest _).insert slot .upstream _

theorem deleteReplica : Agree (backend.deleteReplica slot) (db.deleteReplica slot) := by
  apply h.bind_replica
  intro replica hreplica
  have cleared := (h.written hreplica).clearCommitted.clearStaged
  refine Represents.mk ?_ ((cleared.keyed.erase _).erase _)
  intro other part
  rw [replicaMetaKey_eq, replicaUpstreamMetaKey_eq, lookup_erase, lookup_erase,
    Lib.getElem?_erase_ite]
  by_cases hslot : slot = other
  · subst hslot
    have held := cleared.own part
    cases part <;> simp_all [ReplicaData.value]
  · rw [cleared.others other part hslot, if_neg hslot, ← h.lookup]
    simp [hslot]

theorem installSnapshot {snap : Snapshot} (writable : AllWritable snap) :
    Agree (backend.installSnapshot slot snap) (db.installSnapshot slot snap) := by
  rw [BadgerBackend.installSnapshot, snapshotEntries_eq writable]
  apply h.replaces
  intro replica written
  exact written.clearCommitted.clearStaged.install rfl writable

theorem setHighestCommittedSequence (sequence : UInt64) :
    Agree (backend.setHighestCommittedSequence slot sequence)
      (db.setHighestCommittedSequence slot sequence) := by
  apply h.replaces
  intro replica written
  exact (written.clearStaged.highest sequence).upstream sequence

theorem setHighestUpstreamConfirmedSequence (sequence : UInt64) :
    Agree (backend.setHighestUpstreamConfirmedSequence slot sequence)
      (db.setHighestUpstreamConfirmedSequence slot sequence) := by
  apply h.replaces
  intro replica written
  exact written.upstream sequence

theorem stageOperation (sequence : UInt64) {operation : StagedOperation}
    (writable : operation.metadata.Writable) :
    Agree (backend.stageOperation slot sequence operation)
      (db.stageOperation slot sequence operation) := by
  obtain ⟨json, hjson⟩ := exists_stagedJson_iff.mpr writable
  apply h.bind_replica
  intro replica hreplica
  rw [h.loadStagedOperation hreplica, hjson]
  cases replica.staged[sequence]? with
  | some held => rfl
  | none => exact h.replace ((h.written hreplica).stage sequence hjson)

theorem commitSequence (sequence : UInt64) :
    Agree (backend.commitSequence slot sequence) (db.commitSequence slot sequence) := by
  apply h.bind_replica
  intro replica hreplica
  by_cases hnext : sequence ≠ replica.highestCommitted + 1
  · simp only [if_pos hnext]
    rfl
  · simp only [if_neg hnext]
    rw [h.loadStagedOperation hreplica]
    cases hoperation : replica.staged[sequence]? with
    | none => rfl
    | some operation =>
      have writable := exists_stagedJson_iff.mp (h.written_staged hreplica hoperation)
      obtain ⟨written, hwrite, writes⟩ :=
        (h.written hreplica).commit sequence sequence operation fun _ => writable
      change Agree (.ok _) (BadgerBackend.writeSync "commit sequence" _)
      rw [hwrite]
      exact h.replace writes

/-! ## Calls that only read -/

theorem read {A : Type} {slot : Int64} {first : ReplicaData → Reply} {wrap : A → Reply}
    {second : Except Error A}
    (missing : backend[slot]? = none → second = .error (unknownReplica slot))
    (found : ∀ replica, backend[slot]? = some replica → second.map wrap = .ok (first replica)) :
    InStep (backend.read slot first) (db, second.map wrap) := by
  refine ⟨?_, h⟩
  rw [InMemoryBackend.read, InMemoryBackend.replica]
  cases hreplica : backend[slot]? with
  | none =>
    rw [missing hreplica]
    rfl
  | some replica =>
    rw [found replica hreplica]
    rfl

end Represents

/-! ## Batches -/

/-- What is marshalled for the operation: a delete writes no object. -/
def WriteOperation.written (operation : WriteOperation) : List ObjectMetadata :=
  if operation.kind = .put then [operation.metadata] else []

/-- Every commit of the batch continues the sequence of its slot, counted from the highest sequences
the slots have and on through the batch. -/
def inSequence (highest : Int64 → Option UInt64) : List DurableCommit → Bool
  | [] => true
  | commit :: commits =>
    (highest commit.operation.slot).any (fun sequence => commit.operation.sequence = sequence + 1) &&
      inSequence (Function.update highest commit.operation.slot (some commit.operation.sequence))
        commits

namespace Represents

variable (h : Represents backend db)
include h

theorem applyCommit {commit : DurableCommit} (hnext : inSequence backend.highest [commit] = true)
    (writable : ∀ metadata ∈ commit.operation.written, metadata.Writable) :
    ∃ next written, backend.applyCommit commit = .ok next ∧
      next.highest = Function.update backend.highest commit.operation.slot
        (some commit.operation.sequence) ∧
      db.writeCommit commit.operation.slot commit.operation.sequence
        commit.upstreamConfirmedSequence commit.operation.staged = .ok written ∧
      Represents next written := by
  simp only [inSequence, Bool.and_true, InMemoryBackend.highest, Option.any_map] at hnext
  cases hreplica : backend[commit.operation.slot]? with
  | none =>
    rw [hreplica] at hnext
    cases hnext
  | some replica =>
    have continues : commit.operation.sequence = replica.highestCommitted + 1 := by
      simpa [hreplica] using hnext
    have object : commit.operation.kind = .put → commit.operation.metadata.Writable := by
      intro hput
      apply writable
      rw [WriteOperation.written, if_pos hput]
      exact List.mem_singleton_self _
    obtain ⟨written, hwrite, writes⟩ := (h.written hreplica).commit commit.operation.sequence
      commit.upstreamConfirmedSequence commit.operation.staged object
    refine ⟨_, written, ?_, ?_, hwrite, h.replace writes⟩
    · rw [InMemoryBackend.applyCommit, InMemoryBackend.replica, hreplica]
      simp [continues, bind, Except.bind]
    · funext slot
      rw [InMemoryBackend.highest, Lib.getElem?_insert_ite]
      by_cases hslot : slot = commit.operation.slot
      · subst hslot
        simp [ReplicaData.commit]
      · rw [if_neg (Ne.symm hslot), Function.update_of_ne hslot]
        rfl

theorem refuseCommit {commit : DurableCommit} (commits : List DurableCommit)
    (hnext : inSequence backend.highest [commit] = false) :
    ∃ err, backend.applyCommit commit = .error err ∧
      db.checkBatch ∅ (commit :: commits) = .error err := by
  simp only [inSequence, Bool.and_true, InMemoryBackend.highest, Option.any_map] at hnext
  rw [InMemoryBackend.applyCommit, InMemoryBackend.replica, BadgerBackend.checkBatch,
    Std.ExtTreeMap.getElem?_empty]
  cases hreplica : backend[commit.operation.slot]? with
  | none =>
    simp only [h.highest_missing hreplica]
    exact ⟨_, rfl, rfl⟩
  | some replica =>
    have breaks : commit.operation.sequence ≠ replica.highestCommitted + 1 := by
      simpa [hreplica] using hnext
    simp only [h.highest_found hreplica, bind, Except.bind, if_pos breaks]
    exact ⟨_, rfl, rfl⟩

theorem checkBatch {expected : Std.ExtTreeMap Int64 UInt64} {commits : List DurableCommit}
    (hnext : inSequence (fun slot => expected[slot]?.or (backend.highest slot)) commits = true) :
    db.checkBatch expected commits = .ok () := by
  induction commits generalizing expected with
  | nil => rfl
  | cons commit commits ih =>
    rw [inSequence, Bool.and_eq_true] at hnext
    obtain ⟨hhead, htail⟩ := hnext
    rw [BadgerBackend.checkBatch]
    have later : Function.update (fun slot => expected[slot]?.or (backend.highest slot))
        commit.operation.slot (some commit.operation.sequence) = fun slot =>
          (expected.insert commit.operation.slot commit.operation.sequence)[slot]?.or
            (backend.highest slot) := by
      funext slot
      rw [Lib.getElem?_insert_ite]
      by_cases hslot : slot = commit.operation.slot
      · subst hslot
        simp
      · rw [if_neg (Ne.symm hslot), Function.update_of_ne hslot]
    rw [later] at htail
    cases hexpected : expected[commit.operation.slot]? with
    | some highest =>
      have continues : commit.operation.sequence = highest + 1 := by
        simpa [hexpected] using hhead
      simp only [bind, Except.bind, if_neg (not_not.mpr continues)]
      exact ih htail
    | none =>
      cases hreplica : backend[commit.operation.slot]? with
      | none => simp [hexpected, InMemoryBackend.highest, hreplica] at hhead
      | some replica =>
        have continues : commit.operation.sequence = replica.highestCommitted + 1 := by
          simpa [hexpected, InMemoryBackend.highest, hreplica] using hhead
        simp only [h.highest_found hreplica, bind, Except.bind, if_neg (not_not.mpr continues)]
        exact ih htail

end Represents

/-- A batch that is wholly in sequence is applied wholly by both. -/
theorem Represents.writeBatch {commits : List DurableCommit} {backend : InMemoryBackend}
    {db : BadgerBackend} (h : Represents backend db)
    (hnext : inSequence backend.highest commits = true)
    (writable : ∀ commit ∈ commits, ∀ metadata ∈ commit.operation.written, metadata.Writable) :
    ∃ written, db.writeBatch commits = .ok written ∧
      (backend.applyCommittedBatch commits).2 = .ok .done ∧
      Represents (backend.applyCommittedBatch commits).1 written := by
  induction commits generalizing backend db with
  | nil => exact ⟨db, rfl, rfl, h⟩
  | cons commit commits ih =>
    rw [inSequence, Bool.and_eq_true] at hnext
    obtain ⟨hhead, htail⟩ := hnext
    have single : inSequence backend.highest [commit] = true := by
      rw [inSequence, hhead]
      rfl
    obtain ⟨next, written, happly, hhighest, hwrite, hnext⟩ :=
      h.applyCommit single (writable commit List.mem_cons_self)
    rw [InMemoryBackend.applyCommittedBatch, happly, BadgerBackend.writeBatch, hwrite]
    rw [← hhighest] at htail
    exact ih hnext htail fun later hlater => writable later (List.mem_cons_of_mem _ hlater)

theorem Represents.applyCommittedBatch {commits : List DurableCommit}
    (h : Represents backend db)
    (hwhole : (inSequence backend.highest commits ||
      !inSequence backend.highest (commits.take 1)) = true)
    (writable : ∀ commit ∈ commits, ∀ metadata ∈ commit.operation.written, metadata.Writable) :
    InStep (backend.applyCommittedBatch commits)
      (Backend.settle db (db.applyCommittedBatch commits)) := by
  rw [Bool.or_eq_true, Bool.not_eq_true'] at hwhole
  rcases hwhole with hnext | hhead
  · obtain ⟨written, hwrite, reply, represents⟩ := h.writeBatch hnext writable
    have checked : db.checkBatch ∅ commits = .ok () := by
      apply h.checkBatch
      simpa using hnext
    rw [BadgerBackend.applyCommittedBatch, checked]
    change InStep _ (Backend.settle db (db.writeBatch commits))
    rw [hwrite]
    exact ⟨reply, represents⟩
  · cases commits with
    | nil => cases hhead
    | cons commit commits =>
      obtain ⟨err, happly, hcheck⟩ := h.refuseCommit commits hhead
      rw [InMemoryBackend.applyCommittedBatch, happly, BadgerBackend.applyCommittedBatch, hcheck]
      exact ⟨rfl, h⟩

/-! ## Whole runs -/

/-- A batch is wholly in sequence or refused at its first commit. -/
def Call.whole (backend : InMemoryBackend) : Call → Bool
  | .applyCommittedBatch commits =>
    inSequence backend.highest commits || !inSequence backend.highest (commits.take 1)
  | _ => true

def Call.written : Call → List ObjectMetadata
  | .installSnapshot _ snap => snap.toList.map (·.2.metadata)
  | .applyCommitted operation _ => operation.written
  | .applyCommittedBatch commits => commits.flatMap (·.operation.written)
  | .stagePut _ _ _ _ metadata => [metadata]
  | .stageDelete _ _ _ metadata => [metadata]
  | _ => []

/-- Its times fall in the years 0 to 9999. -/
def Call.Writable (call : Call) : Prop :=
  ∀ metadata ∈ call.written, metadata.Writable

instance : DecidablePred Call.Writable :=
  fun _ => inferInstanceAs (Decidable (∀ _ ∈ _, _))

def wholeBatches : InMemoryBackend → List Call → Bool
  | _, [] => true
  | backend, call :: calls => call.whole backend && wholeBatches (backend.step call).1 calls

theorem Represents.step (h : Represents backend db) {call : Call}
    (hwhole : call.whole backend = true) (writable : call.Writable) :
    InStep (backend.step call) (db.step call) := by
  cases call with
  | createReplica slot => exact h.settle (h.createReplica slot)
  | deleteReplica slot => exact h.settle (h.deleteReplica slot)
  | snapshot slot =>
    refine h.read ?_ ?_
    · intro hmissing
      rw [BadgerBackend.committedSnapshot, h.highest_missing hmissing]
      rfl
    · intro replica hreplica
      rw [h.committedSnapshot hreplica]
      rfl
  | installSnapshot slot snap =>
    exact h.settle (h.installSnapshot slot (List.forall_mem_map.mp writable))
  | setHighestCommittedSequence slot sequence =>
    exact h.settle (h.setHighestCommittedSequence slot sequence)
  | applyCommitted operation persistedUpstream =>
    apply h.applyCommittedBatch
    · exact Bool.or_not_self _
    · exact List.forall_mem_singleton.mpr writable
  | applyCommittedBatch commits =>
    apply h.applyCommittedBatch hwhole
    intro commit hcommit metadata hmetadata
    exact writable metadata (List.mem_flatMap.mpr ⟨commit, hcommit, hmetadata⟩)
  | stagePut slot sequence key value metadata | stageDelete slot sequence key metadata =>
    exact h.settle (h.stageOperation slot sequence (List.forall_mem_singleton.mp writable))
  | commitSequence slot sequence => exact h.settle (h.commitSequence slot sequence)
  | getCommitted slot key =>
    refine h.read ?_ ?_
    · intro hmissing
      rw [BadgerBackend.getCommitted, h.highest_missing hmissing]
      rfl
    · intro replica hreplica
      rw [h.getCommitted hreplica]
      rfl
  | highestCommittedSequence slot =>
    refine h.read h.highest_missing ?_
    intro replica hreplica
    rw [h.highest_found hreplica]
    rfl
  | stagedSequences slot =>
    refine h.read ?_ ?_
    · intro hmissing
      rw [BadgerBackend.stagedSequences, h.highest_missing hmissing]
      rfl
    · intro replica hreplica
      rw [h.stagedSequences hreplica]
      rfl
  | highestUpstreamConfirmedSequence slot =>
    refine h.read ?_ ?_
    · intro hmissing
      rw [BadgerBackend.highestUpstreamConfirmedSequence, h.highest_missing hmissing]
      rfl
    · intro replica hreplica
      rw [h.highestUpstreamConfirmedSequence hreplica]
      rfl
  | setHighestUpstreamConfirmedSequence slot sequence =>
    exact h.settle (h.setHighestUpstreamConfirmedSequence slot sequence)

theorem Represents.replies {backend : InMemoryBackend} {db : BadgerBackend} {calls : List Call}
    (h : Represents backend db) (hwhole : wholeBatches backend calls = true)
    (writable : ∀ call ∈ calls, call.Writable) :
    replies BadgerBackend.step db calls = replies InMemoryBackend.step backend calls := by
  induction calls generalizing backend db with
  | nil => rfl
  | cons call calls ih =>
    rw [wholeBatches, Bool.and_eq_true] at hwhole
    rw [List.forall_mem_cons] at writable
    have inStep := h.step hwhole.1 writable.1
    rw [Backend.replies, Backend.replies, ih inStep.represents hwhole.2 writable.2, inStep.reply]

end Craq.Backend
