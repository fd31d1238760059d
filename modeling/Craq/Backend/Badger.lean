import Craq.Backend.InMemory
import Craq.Storage.Encoding

/-! # The backend on a Badger database

Everything is in one ordered store of byte strings.  A key begins with a letter for its kind and the
eight bytes of the slot.  A transaction is applied as a whole, so a call that fails leaves the
database as it was.
-/

namespace Craq.Backend

open Storage (CommittedObject ObjectMetadata OperationKind Snapshot Error committedJson
  readCommittedJson kindText readKind metadataJson readMetadata marshal unmarshal)
open Lib (Bytes KeyValue Json encodeUint64 decodeUint64? textBytes bytesText?)

/-! ## Keys -/

def keyReplicaMeta : UInt8 := 'm'.toUInt8

def keyReplicaUpstreamMeta : UInt8 := 'u'.toUInt8

def keyCommittedData : UInt8 := 'c'.toUInt8

def keyStagedOp : UInt8 := 's'.toUInt8

def encodeSlot (slot : Int64) : Bytes :=
  encodeUint64 slot.toUInt64

def replicaMetaKey (slot : Int64) : Bytes :=
  keyReplicaMeta :: encodeSlot slot

def replicaUpstreamMetaKey (slot : Int64) : Bytes :=
  keyReplicaUpstreamMeta :: encodeSlot slot

def committedStem (slot : Int64) : Bytes :=
  keyCommittedData :: encodeSlot slot

def committedKey (slot : Int64) (key : String) : Bytes :=
  committedStem slot ++ textBytes key

def stagedStem (slot : Int64) : Bytes :=
  keyStagedOp :: encodeSlot slot

def stagedKey (slot : Int64) (sequence : UInt64) : Bytes :=
  stagedStem slot ++ encodeUint64 sequence

/-! ## Values -/

def stagedJson (operation : StagedOperation) : Option Json := do
  let metadata ← metadataJson operation.metadata
  return .struct [("kind", .string (kindText operation.kind).toList),
    ("key", .string operation.key.toList), ("value", .string operation.value.toList),
    ("metadata", metadata)]

def readStagedJson (json : Json) : Option StagedOperation := do
  let kind ← (json.field? "kind").bind readKind
  let key ← json.member "key" "" Json.string?
  let value ← json.member "value" "" Json.string?
  let metadata ← (json.field? "metadata").bind readMetadata
  return { kind, key, value, metadata }

theorem exists_stagedJson_iff {operation : StagedOperation} :
    (∃ json, stagedJson operation = some json) ↔ operation.metadata.Writable := by
  rw [← Storage.exists_metadataJson_iff]
  constructor
  · rintro ⟨json, hJson⟩
    obtain ⟨metadata, hMetadata, -⟩ := Option.bind_eq_some_iff.mp hJson
    exact ⟨metadata, hMetadata⟩
  · rintro ⟨metadata, hMetadata⟩
    rw [stagedJson, hMetadata]
    exact ⟨_, rfl⟩

theorem readStagedJson_stagedJson {operation : StagedOperation} {json : Json}
    (h : stagedJson operation = some json) : readStagedJson json = some operation := by
  obtain ⟨metadata, hMetadata, h⟩ := Option.bind_eq_some_iff.mp h
  cases h
  simp [readStagedJson, Json.member, Json.string?, List.lookup,
    Storage.readMetadata_metadataJson hMetadata]

def invalidLength (value : Bytes) : Error :=
  .sentinel .stateMismatch s!"invalid uint64 length {value.length}"

def decodeUint64 (value : Bytes) : Except Error UInt64 :=
  match decodeUint64? value with
  | some number => .ok number
  | none => .error (invalidLength value)

-- Keys of committed objects are always text.
def goString (bytes : Bytes) : String :=
  (bytesText? bytes).getD ""

/-! ## Calls -/

abbrev BadgerBackend := KeyValue

namespace BadgerBackend

variable (db : BadgerBackend)

-- The copy of an empty value is nil, which reads as an absent key.
def get (key : Bytes) : Option Bytes :=
  db[key]?.filter fun value => !value.isEmpty

def highestCommittedSequence (slot : Int64) : Except Error UInt64 :=
  match db.get (replicaMetaKey slot) with
  | some value => decodeUint64 value
  | none => .error (unknownReplica slot)

def createReplica (slot : Int64) : Except Error BadgerBackend :=
  match db.highestCommittedSequence slot with
  | .ok _ => .error (replicaExists slot)
  | .error err =>
    if err.is .unknownReplica then
      .ok ((db.insert (replicaMetaKey slot) (encodeUint64 0)).insert
        (replicaUpstreamMetaKey slot) (encodeUint64 0))
    else .error err

def deleteReplica (slot : Int64) : Except Error BadgerBackend := do
  let _ ← db.highestCommittedSequence slot
  let cleared := (KeyValue.deleteStem db (committedStem slot)).deleteStem (stagedStem slot)
  return (cleared.erase (replicaMetaKey slot)).erase (replicaUpstreamMetaKey slot)

/-- A transaction that fails has written nothing. -/
def writeSync (op : String) (txn : Except Error BadgerBackend) : Except Error BadgerBackend :=
  txn.mapError (.wrapped s!"err in owner.writeSync({op})")

def snapshotEntries (slot : Int64) (snap : Snapshot) : Except Error (List (Bytes × Bytes)) :=
  snap.toList.mapM fun entry => do
    let encoded ← (marshal (committedJson entry.2)).mapError
      (.wrapped "err in json.Marshal(committed snapshot)")
    return (committedKey slot entry.1, encoded)

def installSnapshot (slot : Int64) (snap : Snapshot) : Except Error BadgerBackend := do
  let _ ← db.highestCommittedSequence slot
  writeSync "install snapshot" do
    let cleared := (KeyValue.deleteStem db (committedStem slot)).deleteStem (stagedStem slot)
    return cleared.insertMany (← snapshotEntries slot snap)

def setHighestCommittedSequence (slot : Int64) (sequence : UInt64) :
    Except Error BadgerBackend := do
  let _ ← db.highestCommittedSequence slot
  let cleared := KeyValue.deleteStem db (stagedStem slot)
  return (cleared.insert (replicaMetaKey slot) (encodeUint64 sequence)).insert
    (replicaUpstreamMetaKey slot) (encodeUint64 sequence)

def setHighestUpstreamConfirmedSequence (slot : Int64) (sequence : UInt64) :
    Except Error BadgerBackend := do
  let _ ← db.highestCommittedSequence slot
  return db.insert (replicaUpstreamMetaKey slot) (encodeUint64 sequence)

def writeObject (slot : Int64) (operation : StagedOperation) : Except Error BadgerBackend :=
  match operation.kind with
  | .put => do
    let encoded ← (marshal (committedJson ⟨operation.value, operation.metadata⟩)).mapError
      (.wrapped "err in json.Marshal(committed put)")
    return db.insert (committedKey slot operation.key) encoded
  | .delete => .ok (db.erase (committedKey slot operation.key))

def writeCommit (slot : Int64) (sequence upstream : UInt64) (operation : StagedOperation) :
    Except Error BadgerBackend := do
  let written ← db.writeObject slot operation
  return ((written.erase (stagedKey slot sequence)).insert (replicaMetaKey slot)
    (encodeUint64 sequence)).insert (replicaUpstreamMetaKey slot) (encodeUint64 upstream)

/-- The check of a batch.  `expected` has the highest sequence of the slots the batch has already
been found to commit to. -/
def checkBatch (expected : Std.ExtTreeMap Int64 UInt64) : List DurableCommit → Except Error Unit
  | [] => .ok ()
  | commit :: commits => do
    let operation := commit.operation
    let highest ←
      match expected[operation.slot]? with
      | some highest => .ok highest
      | none => db.highestCommittedSequence operation.slot
    if operation.sequence ≠ highest + 1 then
      .error (unexpectedSequence operation.slot (highest + 1) operation.sequence)
    else checkBatch (expected.insert operation.slot operation.sequence) commits

def writeBatch : BadgerBackend → List DurableCommit → Except Error BadgerBackend
  | db, [] => .ok db
  | db, commit :: commits => do
    let written ← db.writeCommit commit.operation.slot commit.operation.sequence
      commit.upstreamConfirmedSequence commit.operation.staged
    writeBatch written commits

def applyCommittedBatch (commits : List DurableCommit) : Except Error BadgerBackend := do
  db.checkBatch ∅ commits
  db.writeBatch commits

def loadStagedOperation (slot : Int64) (sequence : UInt64) : Except Error StagedOperation :=
  match db.get (stagedKey slot sequence) with
  | some value => (unmarshal readStagedJson value).mapError (.wrapped "err in json.Unmarshal(staged op)")
  | none => .error (notStaged slot sequence)

def stageOperation (slot : Int64) (sequence : UInt64) (operation : StagedOperation) :
    Except Error BadgerBackend := do
  let _ ← db.highestCommittedSequence slot
  match db.loadStagedOperation slot sequence with
  | .ok _ => .error (alreadyStaged slot sequence)
  | .error err =>
    if err.is .sequenceMismatch then do
      let encoded ← (marshal (stagedJson operation)).mapError
        (.wrapped "err in json.Marshal(staged op)")
      return db.insert (stagedKey slot sequence) encoded
    else .error err

def commitSequence (slot : Int64) (sequence : UInt64) : Except Error BadgerBackend := do
  let highest ← db.highestCommittedSequence slot
  if sequence ≠ highest + 1 then .error (unexpectedSequence slot (highest + 1) sequence)
  else do
    let operation ← db.loadStagedOperation slot sequence
    writeSync "commit sequence" (db.writeCommit slot sequence sequence operation)

def readCommitted (entry : Bytes × Bytes) : Except Error (String × CommittedObject) := do
  let object ← (unmarshal readCommittedJson entry.2).mapError
    (.wrapped "err in json.Unmarshal(committed snapshot)")
  return (goString entry.1, object)

def committedSnapshot (slot : Int64) : Except Error Snapshot := do
  let _ ← db.highestCommittedSequence slot
  let entries ← (KeyValue.scan db (committedStem slot)).mapM readCommitted
  return Std.ExtTreeMap.ofList entries

def getCommitted (slot : Int64) (key : String) : Except Error (Option CommittedObject) := do
  let _ ← db.highestCommittedSequence slot
  match db.get (committedKey slot key) with
  | none => .ok none
  | some value =>
    let object ← (unmarshal readCommittedJson value).mapError
      (.wrapped "err in json.Unmarshal(committed)")
    return some object

def stagedSequences (slot : Int64) : Except Error (List UInt64) := do
  let _ ← db.highestCommittedSequence slot
  let sequences ← (KeyValue.scan db (stagedStem slot)).mapM fun entry => decodeUint64 entry.1
  return InMemoryBackend.sortedSequences sequences

def highestUpstreamConfirmedSequence (slot : Int64) : Except Error UInt64 := do
  let _ ← db.highestCommittedSequence slot
  match db.get (replicaUpstreamMetaKey slot) with
  | none => .ok 0
  | some value => decodeUint64 value

def step (db : BadgerBackend) : Call → BadgerBackend × Except Error Reply
  | .createReplica slot => settle db (db.createReplica slot)
  | .deleteReplica slot => settle db (db.deleteReplica slot)
  | .snapshot slot => (db, (db.committedSnapshot slot).map .snapshot)
  | .installSnapshot slot snap => settle db (db.installSnapshot slot snap)
  | .setHighestCommittedSequence slot sequence =>
    settle db (db.setHighestCommittedSequence slot sequence)
  | .applyCommitted operation persistedUpstream =>
    settle db (db.applyCommittedBatch [⟨operation, persistedUpstream.getD operation.sequence⟩])
  | .applyCommittedBatch commits => settle db (db.applyCommittedBatch commits)
  | .stagePut slot sequence key value metadata =>
    settle db (db.stageOperation slot sequence ⟨.put, key, value, metadata⟩)
  | .stageDelete slot sequence key metadata =>
    settle db (db.stageOperation slot sequence ⟨.delete, key, "", metadata⟩)
  | .commitSequence slot sequence => settle db (db.commitSequence slot sequence)
  | .getCommitted slot key => (db, (db.getCommitted slot key).map .object)
  | .highestCommittedSequence slot => (db, (db.highestCommittedSequence slot).map .sequence)
  | .stagedSequences slot => (db, (db.stagedSequences slot).map .sequences)
  | .highestUpstreamConfirmedSequence slot =>
    (db, (db.highestUpstreamConfirmedSequence slot).map .sequence)
  | .setHighestUpstreamConfirmedSequence slot sequence =>
    settle db (db.setHighestUpstreamConfirmedSequence slot sequence)

end BadgerBackend

end Craq.Backend
