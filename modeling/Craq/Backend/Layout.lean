import Craq.Backend.Badger
import Craq.Lib.Except

/-! # How the database lays out the replicas

The database holds exactly the parts of the replicas that the backend in memory holds, each under a
key of its own.  Whatever is read from it is what the backend in memory has.
-/

namespace Craq.Backend

open Storage (CommittedObject ObjectMetadata OperationKind Snapshot Error committedJson
  readCommittedJson exists_committedJson)
open Lib (Bytes KeyValue Json jsonBytes encodeUint64 decodeUint64? textBytes bytesText?)

/-! ## Where a part of a replica is kept -/

inductive Part where
  | highest
  | upstream
  | committed (key : String)
  | staged (sequence : UInt64)
deriving DecidableEq

namespace Part

def bytes (slot : Int64) : Part → Bytes
  | .highest => replicaMetaKey slot
  | .upstream => replicaUpstreamMetaKey slot
  | .committed key => committedKey slot key
  | .staged sequence => stagedKey slot sequence

def letter : Part → UInt8
  | .highest => keyReplicaMeta
  | .upstream => keyReplicaUpstreamMeta
  | .committed _ => keyCommittedData
  | .staged _ => keyStagedOp

def rest : Part → Bytes
  | .highest => []
  | .upstream => []
  | .committed key => textBytes key
  | .staged sequence => encodeUint64 sequence

theorem bytes_eq (slot : Int64) (part : Part) :
    part.bytes slot = part.letter :: (encodeSlot slot ++ part.rest) := by
  cases part with
  | highest => simp [bytes, letter, rest, replicaMetaKey]
  | upstream => simp [bytes, letter, rest, replicaUpstreamMetaKey]
  | committed key => simp [bytes, letter, rest, committedKey, committedStem]
  | staged sequence => simp [bytes, letter, rest, stagedKey, stagedStem]

variable {part : Part}

theorem isCommitted_iff : keyCommittedData = part.letter ↔ ∃ key, part = .committed key := by
  cases part <;> simp [letter] <;> decide

theorem isStaged_iff : keyStagedOp = part.letter ↔ ∃ sequence, part = .staged sequence := by
  cases part <;> simp [letter] <;> decide

theorem ext {other : Part} (hletter : part.letter = other.letter) (hrest : part.rest = other.rest) :
    part = other := by
  cases part with
  | highest =>
    cases other with
    | highest => rfl
    | upstream => exact absurd hletter (by decide)
    | committed key | staged sequence => exact absurd hletter (by simp [letter]; decide)
  | upstream =>
    cases other with
    | highest => exact absurd hletter (by decide)
    | upstream => rfl
    | committed key | staged sequence => exact absurd hletter (by simp [letter]; decide)
  | committed key =>
    obtain ⟨found, rfl⟩ := isCommitted_iff.mp hletter
    exact congrArg committed (Lib.textBytes_injective hrest)
  | staged sequence =>
    obtain ⟨found, rfl⟩ := isStaged_iff.mp hletter
    exact congrArg staged (Lib.encodeUint64_injective hrest)

end Part

theorem encodeSlot_injective : Function.Injective encodeSlot := by
  intro slot other heq
  have same := congrArg UInt64.toInt64 (Lib.encodeUint64_injective heq)
  simpa using same

variable {slot other : Int64} {part : Part}

theorem encodeSlot_append_inj {rest tail : Bytes}
    (heq : encodeSlot slot ++ rest = encodeSlot other ++ tail) : slot = other ∧ rest = tail := by
  obtain ⟨hslot, hrest⟩ := List.append_inj heq rfl
  exact ⟨encodeSlot_injective hslot, hrest⟩

theorem Part.bytes_inj {held : Part} :
    part.bytes slot = held.bytes other ↔ slot = other ∧ part = held := by
  constructor
  · intro heq
    rw [bytes_eq, bytes_eq, List.cons.injEq] at heq
    obtain ⟨hslot, hrest⟩ := encodeSlot_append_inj heq.2
    exact ⟨hslot, Part.ext heq.1 hrest⟩
  · rintro ⟨rfl, rfl⟩
    rfl

/-- A key that continues a stem is a part of the stem's kind and slot. -/
theorem Part.stem_append_eq_bytes {letter : UInt8} {tail : Bytes}
    (heq : letter :: encodeSlot slot ++ tail = part.bytes other) :
    slot = other ∧ letter = part.letter ∧ tail = part.rest := by
  rw [bytes_eq, List.cons_append, List.cons.injEq] at heq
  obtain ⟨hslot, hrest⟩ := encodeSlot_append_inj heq.2
  exact ⟨hslot, heq.1, hrest⟩

theorem Part.stem_prefix_bytes {letter : UInt8} :
    letter :: encodeSlot slot <+: part.bytes other ↔ slot = other ∧ letter = part.letter := by
  constructor
  · rintro ⟨tail, heq⟩
    obtain ⟨hslot, hletter, -⟩ := Part.stem_append_eq_bytes heq
    exact ⟨hslot, hletter⟩
  · rintro ⟨rfl, rfl⟩
    rw [bytes_eq, List.cons_prefix_cons]
    exact ⟨rfl, List.prefix_append _ _⟩

/-! ## The relation between the two stores -/

/-- What the database holds for a part of the replica, where the inner `none` is a value that cannot
be written. -/
def ReplicaData.value (replica : ReplicaData) : Part → Option (Option Bytes)
  | .highest => some (some (encodeUint64 replica.highestCommitted))
  | .upstream => some (some (encodeUint64 replica.highestUpstreamConfirmed))
  | .committed key => replica.committed[key]?.map fun object => (committedJson object).map jsonBytes
  | .staged sequence =>
    replica.staged[sequence]?.map fun operation => (stagedJson operation).map jsonBytes

def Keyed (db : BadgerBackend) : Prop :=
  ∀ key ∈ db, ∃ slot part, key = Part.bytes slot part

/-- Every part of every replica could be written, and the database holds what was. -/
structure Represents (backend : InMemoryBackend) (db : BadgerBackend) : Prop where
  lookup : ∀ slot part, db[Part.bytes slot part]?.map some = backend[slot]?.bind (·.value part)
  keyed : Keyed db

theorem Represents.empty : Represents ∅ ∅ where
  lookup slot part := by simp
  keyed key hkey := absurd hkey Std.ExtTreeMap.not_mem_empty

/-! ### What each write of the database does to the parts -/

section Keys

variable (slot : Int64)

theorem replicaMetaKey_eq : replicaMetaKey slot = Part.highest.bytes slot := rfl

theorem replicaUpstreamMetaKey_eq : replicaUpstreamMetaKey slot = Part.upstream.bytes slot := rfl

end Keys

section Writes

variable (db : BadgerBackend) (slot other : Int64) (part held : Part) (value : Bytes)

theorem lookup_insert :
    (db.insert (part.bytes slot) value)[held.bytes other]? =
      if slot = other ∧ part = held then some value else db[held.bytes other]? := by
  rw [Lib.getElem?_insert_ite]
  simp only [Part.bytes_inj]

theorem lookup_erase :
    (db.erase (part.bytes slot))[held.bytes other]? =
      if slot = other ∧ part = held then none else db[held.bytes other]? := by
  rw [Lib.getElem?_erase_ite]
  simp only [Part.bytes_inj]

theorem lookup_deleteStem (letter : UInt8) :
    (KeyValue.deleteStem db (letter :: encodeSlot slot))[held.bytes other]? =
      if slot = other ∧ letter = held.letter then none else db[held.bytes other]? := by
  rw [KeyValue.deleteStem_getElem?]
  simp only [Part.stem_prefix_bytes]

end Writes

namespace Keyed

variable {db : BadgerBackend} (h : Keyed db)
include h

theorem insert (slot : Int64) (part : Part) (value : Bytes) :
    Keyed (db.insert (part.bytes slot) value) := by
  intro key hkey
  rw [Std.ExtTreeMap.mem_insert, Std.LawfulEqCmp.compare_eq_iff_eq] at hkey
  rcases hkey with rfl | hkey
  · exact ⟨slot, part, rfl⟩
  · exact h key hkey

theorem erase (key : Bytes) : Keyed (db.erase key) := by
  intro other hother
  exact h other (Std.ExtTreeMap.mem_of_mem_erase hother)

theorem deleteStem (stem : Bytes) : Keyed (KeyValue.deleteStem db stem) := by
  intro key hkey
  apply h key
  rw [← Std.ExtTreeMap.isSome_getElem?_iff_mem] at hkey ⊢
  rw [KeyValue.deleteStem_getElem?] at hkey
  split at hkey
  · cases hkey
  · exact hkey

end Keyed

/-! ### A snapshot written over the database -/

section Install

variable {db : BadgerBackend} {slot : Int64} {snap : Snapshot}

def encodedEntries (slot : Int64) (snap : Snapshot) : List (Bytes × Bytes) :=
  snap.toList.map fun entry =>
    (committedKey slot entry.1, ((committedJson entry.2).map jsonBytes).getD [])

def AllWritable (snap : Snapshot) : Prop :=
  ∀ entry ∈ snap.toList, entry.2.metadata.Writable

theorem snapshotEntries_eq (h : AllWritable snap) :
    BadgerBackend.snapshotEntries slot snap = .ok (encodedEntries slot snap) := by
  apply Lib.mapM_eq_ok
  intro entry hentry
  obtain ⟨json, hjson⟩ := exists_committedJson (h entry hentry)
  rw [hjson]
  rfl

theorem encodedEntries_keys : ((encodedEntries slot snap).map Prod.fst).Nodup := by
  have same : (encodedEntries slot snap).map Prod.fst = snap.keys.map (committedKey slot) := by
    rw [encodedEntries, ← Std.ExtTreeMap.map_fst_toList_eq_keys, List.map_map, List.map_map]
    rfl
  rw [same]
  refine List.Nodup.map ?_ Std.ExtTreeMap.nodup_keys
  intro first second heq
  have parts : (Part.committed first).bytes slot = (Part.committed second).bytes slot := heq
  exact Part.committed.inj (Part.bytes_inj.mp parts).2

theorem mem_encodedEntries {key : String} {object : CommittedObject}
    (h : snap[key]? = some object) :
    ((Part.committed key).bytes slot, ((committedJson object).map jsonBytes).getD []) ∈
      encodedEntries slot snap :=
  List.mem_map.mpr ⟨(key, object), Std.ExtTreeMap.mem_toList_iff_getElem?_eq_some.mpr h, rfl⟩

theorem part_of_mem_encodedEntries {bytes : Bytes}
    (h : bytes ∈ (encodedEntries slot snap).map Prod.fst) :
    ∃ key, (snap[key]?).isSome ∧ bytes = (Part.committed key).bytes slot := by
  obtain ⟨written, hwritten, rfl⟩ := List.mem_map.mp h
  obtain ⟨⟨key, object⟩, hentry, rfl⟩ := List.mem_map.mp hwritten
  refine ⟨key, ?_, rfl⟩
  rw [Std.ExtTreeMap.mem_toList_iff_getElem?_eq_some.mp hentry]
  rfl

theorem lookup_install_committed (h : AllWritable snap) (key : String) :
    (db.insertMany (encodedEntries slot snap))[(Part.committed key).bytes slot]?.map some =
      (snap[key]?.map fun object => (committedJson object).map jsonBytes).or
        (db[(Part.committed key).bytes slot]?.map some) := by
  cases hobject : snap[key]? with
  | some object =>
    obtain ⟨json, hjson⟩ := exists_committedJson
      (h (key, object) (Std.ExtTreeMap.mem_toList_iff_getElem?_eq_some.mpr hobject))
    rw [Std.ExtTreeMap.getElem?_insertMany_list_of_mem Std.ReflCmp.compare_self
      (Lib.pairwise_of_nodup_keys encodedEntries_keys) (mem_encodedEntries hobject), hjson]
    simp [hjson]
  | none =>
    rw [Std.ExtTreeMap.getElem?_insertMany_list_of_contains_eq_false]
    · rfl
    · rw [← Bool.not_eq_true, List.contains_iff_mem]
      intro hmem
      obtain ⟨other, hother, heq⟩ := part_of_mem_encodedEntries hmem
      cases (Part.bytes_inj.mp heq).2
      rw [hobject] at hother
      cases hother

theorem lookup_install_other {held : Part} (h : ∀ key, ¬(slot = other ∧ Part.committed key = held)) :
    (db.insertMany (encodedEntries slot snap))[held.bytes other]? =
      db[held.bytes other]? := by
  apply Std.ExtTreeMap.getElem?_insertMany_list_of_contains_eq_false
  rw [← Bool.not_eq_true, List.contains_iff_mem]
  intro hmem
  obtain ⟨key, -, heq⟩ := part_of_mem_encodedEntries hmem
  exact h key (Part.bytes_inj.mp heq.symm)

theorem Keyed.install (h : Keyed db) : Keyed (db.insertMany (encodedEntries slot snap)) := by
  intro bytes hbytes
  rw [Std.ExtTreeMap.mem_insertMany_list, List.contains_iff_mem] at hbytes
  rcases hbytes with hbytes | hbytes
  · exact h bytes hbytes
  · obtain ⟨key, -, rfl⟩ := part_of_mem_encodedEntries hbytes
    exact ⟨slot, .committed key, rfl⟩

end Install

/-! ### Reading a part -/

theorem sortedSequences_perm {first second : List UInt64} (h : first.Perm second) :
    InMemoryBackend.sortedSequences first = InMemoryBackend.sortedSequences second := by
  have sorted : ∀ sequences : List UInt64,
      (InMemoryBackend.sortedSequences sequences).Pairwise (· ≤ ·) := by
    intro sequences
    have := @List.pairwise_mergeSort _ (fun first second : UInt64 => decide (first ≤ second))
      (by simpa using fun first second third => UInt64.le_trans)
      (by simpa using fun first second => UInt64.le_total first second) sequences
    simpa [InMemoryBackend.sortedSequences] using this
  apply List.Perm.eq_of_pairwise _ (sorted first) (sorted second)
  · exact ((List.mergeSort_perm first _).trans h).trans (List.mergeSort_perm second _).symm
  · intro left right _ _ hle hge
    exact UInt64.le_antisymm hle hge

theorem ReplicaData.value_ne_nil {replica : ReplicaData} {value : Bytes}
    (h : replica.value part = some (some value)) : value ≠ [] := by
  cases part with
  | highest | upstream =>
    cases h
    exact List.ne_nil_of_length_pos (by simp)
  | committed key =>
    obtain ⟨object, -, hobject⟩ := Option.map_eq_some_iff.mp h
    obtain ⟨json, -, rfl⟩ := Option.map_eq_some_iff.mp hobject
    exact Lib.jsonBytes_ne_nil json
  | staged sequence =>
    obtain ⟨operation, -, hoperation⟩ := Option.map_eq_some_iff.mp h
    obtain ⟨json, -, rfl⟩ := Option.map_eq_some_iff.mp hoperation
    exact Lib.jsonBytes_ne_nil json

namespace Represents

variable {backend : InMemoryBackend} {db : BadgerBackend} (h : Represents backend db)
include h

theorem get (slot : Int64) (part : Part) :
    (db.get (part.bytes slot)).map some = backend[slot]?.bind (·.value part) := by
  rw [← h.lookup, BadgerBackend.get]
  cases hvalue : db[part.bytes slot]? with
  | none => rfl
  | some value =>
    have held := h.lookup slot part
    rw [hvalue, Option.map_some] at held
    obtain ⟨replica, -, hpart⟩ := Option.bind_eq_some_iff.mp held.symm
    simp [ReplicaData.value_ne_nil hpart]

theorem get_missing (hmissing : backend[slot]? = none) (part : Part) :
    db.get (part.bytes slot) = none := by
  have held := h.get slot part
  rw [hmissing] at held
  exact Option.map_eq_none_iff.mp held

theorem get_found {replica : ReplicaData} (hreplica : backend[slot]? = some replica) (part : Part) :
    (db.get (part.bytes slot)).map some = replica.value part := by
  rw [h.get, hreplica]
  rfl

variable {value : Bytes}

theorem get_value {replica : ReplicaData} (hreplica : backend[slot]? = some replica)
    (hvalue : replica.value part = some (some value)) : db.get (part.bytes slot) = some value := by
  have held := h.get_found hreplica part
  rw [hvalue] at held
  obtain ⟨found, hfound, hsame⟩ := Option.map_eq_some_iff.mp held
  rw [hfound, Option.some.inj hsame]

theorem get_none {replica : ReplicaData} (hreplica : backend[slot]? = some replica)
    (hvalue : replica.value part = none) : db.get (part.bytes slot) = none := by
  have held := h.get_found hreplica part
  rw [hvalue] at held
  exact Option.map_eq_none_iff.mp held

theorem highestCommittedSequence (slot : Int64) :
    db.highestCommittedSequence slot = (backend.replica slot).map (·.highestCommitted) := by
  rw [BadgerBackend.highestCommittedSequence, InMemoryBackend.replica, replicaMetaKey_eq]
  cases hreplica : backend[slot]? with
  | none =>
    rw [h.get_missing hreplica]
    rfl
  | some replica =>
    rw [h.get_value hreplica rfl]
    simp [decodeUint64, Except.map]

theorem highest_missing (hmissing : backend[slot]? = none) :
    db.highestCommittedSequence slot = .error (unknownReplica slot) := by
  rw [h.highestCommittedSequence, InMemoryBackend.replica, hmissing]
  rfl

theorem highest_found {replica : ReplicaData} (hreplica : backend[slot]? = some replica) :
    db.highestCommittedSequence slot = .ok replica.highestCommitted := by
  rw [h.highestCommittedSequence, InMemoryBackend.replica, hreplica]
  rfl

theorem highestUpstreamConfirmedSequence {replica : ReplicaData}
    (hreplica : backend[slot]? = some replica) :
    db.highestUpstreamConfirmedSequence slot = .ok replica.highestUpstreamConfirmed := by
  rw [BadgerBackend.highestUpstreamConfirmedSequence, h.highest_found hreplica,
    replicaUpstreamMetaKey_eq, h.get_value hreplica rfl]
  simp [decodeUint64, bind, Except.bind]

/-! ### What is held has been written -/

variable {slot : Int64} {replica : ReplicaData} (hreplica : backend[slot]? = some replica)
include hreplica

theorem written_committed {key : String} {object : CommittedObject}
    (hobject : replica.committed[key]? = some object) : ∃ json, committedJson object = some json := by
  have held := h.get_found hreplica (.committed key)
  rw [ReplicaData.value, hobject, Option.map_some] at held
  obtain ⟨value, -, hvalue⟩ := Option.map_eq_some_iff.mp held
  obtain ⟨json, hjson, -⟩ := Option.map_eq_some_iff.mp hvalue.symm
  exact ⟨json, hjson⟩

theorem written_staged {sequence : UInt64} {operation : StagedOperation}
    (hoperation : replica.staged[sequence]? = some operation) :
    ∃ json, stagedJson operation = some json := by
  have held := h.get_found hreplica (.staged sequence)
  rw [ReplicaData.value, hoperation, Option.map_some] at held
  obtain ⟨value, -, hvalue⟩ := Option.map_eq_some_iff.mp held
  obtain ⟨json, hjson, -⟩ := Option.map_eq_some_iff.mp hvalue.symm
  exact ⟨json, hjson⟩

/-! ### Walking the parts of one kind -/

variable {tail : Bytes}

theorem mem_scan {letter : UInt8} :
    (tail, value) ∈ KeyValue.scan db (letter :: encodeSlot slot) ↔
      ∃ part, letter = part.letter ∧ tail = part.rest ∧ replica.value part = some (some value) := by
  rw [KeyValue.mem_scan]
  constructor
  · intro hvalue
    have hmem : letter :: encodeSlot slot ++ tail ∈ db := by
      rw [← Std.ExtTreeMap.isSome_getElem?_iff_mem, hvalue]
      rfl
    obtain ⟨other, part, hkey⟩ := h.keyed _ hmem
    obtain ⟨rfl, hletter, htail⟩ := Part.stem_append_eq_bytes hkey
    have held := h.lookup slot part
    rw [← hkey, hvalue, hreplica] at held
    exact ⟨part, hletter, htail, held.symm⟩
  · rintro ⟨part, rfl, rfl, hvalue⟩
    have held := h.lookup slot part
    rw [hreplica, Option.bind_some, hvalue] at held
    obtain ⟨found, hfound, hsame⟩ := Option.map_eq_some_iff.mp held
    rw [List.cons_append, ← Part.bytes_eq, hfound, Option.some.inj hsame]

theorem mem_scan_committed :
    (tail, value) ∈ KeyValue.scan db (committedStem slot) ↔
      ∃ key object json, tail = textBytes key ∧ committedJson object = some json ∧
        value = jsonBytes json ∧ replica.committed[key]? = some object := by
  rw [committedStem, h.mem_scan hreplica]
  constructor
  · rintro ⟨part, hletter, rfl, hvalue⟩
    obtain ⟨key, rfl⟩ := Part.isCommitted_iff.mp hletter
    obtain ⟨object, hobject, hencoded⟩ := Option.map_eq_some_iff.mp hvalue
    obtain ⟨json, hjson, rfl⟩ := Option.map_eq_some_iff.mp hencoded
    exact ⟨key, object, json, rfl, hjson, rfl, hobject⟩
  · rintro ⟨key, object, json, rfl, hjson, rfl, hobject⟩
    refine ⟨.committed key, rfl, rfl, ?_⟩
    simp [ReplicaData.value, hobject, hjson]

theorem mem_scan_staged :
    (tail, value) ∈ KeyValue.scan db (stagedStem slot) ↔
      ∃ sequence operation json, tail = encodeUint64 sequence ∧ stagedJson operation = some json ∧
        value = jsonBytes json ∧ replica.staged[sequence]? = some operation := by
  rw [stagedStem, h.mem_scan hreplica]
  constructor
  · rintro ⟨part, hletter, rfl, hvalue⟩
    obtain ⟨sequence, rfl⟩ := Part.isStaged_iff.mp hletter
    obtain ⟨operation, hoperation, hencoded⟩ := Option.map_eq_some_iff.mp hvalue
    obtain ⟨json, hjson, rfl⟩ := Option.map_eq_some_iff.mp hencoded
    exact ⟨sequence, operation, json, rfl, hjson, rfl, hoperation⟩
  · rintro ⟨sequence, operation, json, rfl, hjson, rfl, hoperation⟩
    refine ⟨.staged sequence, rfl, rfl, ?_⟩
    simp [ReplicaData.value, hoperation, hjson]

theorem committedSnapshot : db.committedSnapshot slot = .ok replica.committed := by
  let entries := KeyValue.scan db (committedStem slot)
  let read (entry : Bytes × Bytes) :=
    (goString entry.1, ((Lib.bytesJson? entry.2).bind readCommittedJson).getD {})
  have reads : ∀ key object json, committedJson object = some json →
      read (textBytes key, jsonBytes json) = (key, object) := by
    intro key object json hjson
    simp [read, goString, Storage.readCommittedJson_committedJson hjson]
  have rounds : entries.mapM BadgerBackend.readCommitted = .ok (entries.map read) := by
    apply Lib.mapM_eq_ok
    rintro ⟨tail, value⟩ hentry
    obtain ⟨key, object, json, rfl, hjson, rfl, -⟩ := (h.mem_scan_committed hreplica).mp hentry
    rw [reads key object json hjson, BadgerBackend.readCommitted,
      Storage.unmarshal_jsonBytes (Storage.readCommittedJson_committedJson hjson)]
    simp [goString, Except.mapError, bind, Except.bind, pure, Except.pure]
  have nodup : ((entries.map read).map Prod.fst).Nodup := by
    rw [List.map_map]
    refine KeyValue.scan_map_nodup goString textBytes ?_
    rintro ⟨tail, value⟩ hentry
    obtain ⟨key, object, json, rfl, -, rfl, -⟩ := (h.mem_scan_committed hreplica).mp hentry
    simp [goString]
  have held : ∀ key object,
      (key, object) ∈ entries.map read ↔ replica.committed[key]? = some object := by
    intro key object
    rw [List.mem_map]
    constructor
    · rintro ⟨⟨tail, value⟩, hentry, heq⟩
      obtain ⟨other, found, json, rfl, hjson, rfl, hfound⟩ :=
        (h.mem_scan_committed hreplica).mp hentry
      rw [reads other found json hjson] at heq
      cases heq
      exact hfound
    · intro hobject
      obtain ⟨json, hjson⟩ := h.written_committed hreplica hobject
      exact ⟨_, (h.mem_scan_committed hreplica).mpr ⟨key, object, json, rfl, hjson, rfl, hobject⟩,
        reads key object json hjson⟩
  rw [BadgerBackend.committedSnapshot, h.highest_found hreplica, rounds]
  exact congrArg Except.ok (Lib.ofList_eq nodup held)

theorem getCommitted (key : String) :
    db.getCommitted slot key = .ok replica.committed[key]? := by
  have hkey : committedKey slot key = (Part.committed key).bytes slot := rfl
  rw [BadgerBackend.getCommitted, h.highest_found hreplica, hkey]
  cases hobject : replica.committed[key]? with
  | none =>
    rw [h.get_none hreplica (by simp [ReplicaData.value, hobject])]
    rfl
  | some object =>
    obtain ⟨json, hjson⟩ := h.written_committed hreplica hobject
    have hvalue : replica.value (.committed key) = some (some (jsonBytes json)) := by
      simp [ReplicaData.value, hobject, hjson]
    rw [h.get_value hreplica hvalue]
    simp [Storage.unmarshal_jsonBytes (Storage.readCommittedJson_committedJson hjson),
      Except.mapError, bind, Except.bind, pure, Except.pure]

theorem loadStagedOperation (sequence : UInt64) :
    db.loadStagedOperation slot sequence =
      match replica.staged[sequence]? with
      | some operation => .ok operation
      | none => .error (notStaged slot sequence) := by
  have hkey : stagedKey slot sequence = (Part.staged sequence).bytes slot := rfl
  rw [BadgerBackend.loadStagedOperation, hkey]
  cases hoperation : replica.staged[sequence]? with
  | none => rw [h.get_none hreplica (by simp [ReplicaData.value, hoperation])]
  | some operation =>
    obtain ⟨json, hjson⟩ := h.written_staged hreplica hoperation
    have hvalue : replica.value (.staged sequence) = some (some (jsonBytes json)) := by
      simp [ReplicaData.value, hoperation, hjson]
    rw [h.get_value hreplica hvalue]
    simp [Storage.unmarshal_jsonBytes (readStagedJson_stagedJson hjson), Except.mapError]

theorem stagedSequences :
    db.stagedSequences slot = .ok (InMemoryBackend.sortedSequences replica.staged.keys) := by
  let entries := KeyValue.scan db (stagedStem slot)
  let read (entry : Bytes × Bytes) := (decodeUint64? entry.1).getD 0
  have rounds : entries.mapM (fun entry => decodeUint64 entry.1) = .ok (entries.map read) := by
    apply Lib.mapM_eq_ok
    rintro ⟨tail, value⟩ hentry
    obtain ⟨sequence, operation, json, rfl, -, rfl, -⟩ := (h.mem_scan_staged hreplica).mp hentry
    simp [read, decodeUint64]
  have nodup : (entries.map read).Nodup := by
    refine KeyValue.scan_map_nodup (fun tail => (decodeUint64? tail).getD 0) encodeUint64 ?_
    rintro ⟨tail, value⟩ hentry
    obtain ⟨sequence, operation, json, rfl, -, rfl, -⟩ := (h.mem_scan_staged hreplica).mp hentry
    simp
  have held : (entries.map read).Perm replica.staged.keys := by
    rw [List.perm_ext_iff_of_nodup nodup Std.ExtTreeMap.nodup_keys]
    intro sequence
    rw [List.mem_map, Std.ExtTreeMap.mem_keys, ← Std.ExtTreeMap.isSome_getElem?_iff_mem,
      Option.isSome_iff_exists]
    constructor
    · rintro ⟨⟨tail, value⟩, hentry, rfl⟩
      obtain ⟨sequence, operation, json, rfl, -, rfl, hfound⟩ :=
        (h.mem_scan_staged hreplica).mp hentry
      refine ⟨operation, ?_⟩
      simpa [read] using hfound
    · rintro ⟨operation, hoperation⟩
      obtain ⟨json, hjson⟩ := h.written_staged hreplica hoperation
      refine ⟨_, (h.mem_scan_staged hreplica).mpr
        ⟨sequence, operation, json, rfl, hjson, rfl, hoperation⟩, ?_⟩
      simp [read]
  rw [BadgerBackend.stagedSequences, h.highest_found hreplica]
  change (entries.mapM (fun entry => decodeUint64 entry.1) >>= fun sequences =>
    pure (InMemoryBackend.sortedSequences sequences)) = _
  rw [rounds]
  exact congrArg Except.ok (sortedSequences_perm held)

end Represents

end Craq.Backend
