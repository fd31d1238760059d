import Craq.Lib.Except
import Craq.Lib.Frames
import Craq.Storage.Encoding

/-! # The commit journal as a file

A batch of records is encoded, each record as a frame, and written to the end of a file with one
call.  Records are JSON behind a length of four bytes, or binary behind a header of fixed size; the
segmented journal starts a new file where a batch would make the current one too large.  A replay
reads the frames from the start.
-/

namespace Craq.Storage

open Lib (Bytes Front Frames Remnant FrameStream Scanned slice scan littleEndian readLittleEndian
  bytesText?)

/-! ## Records -/

inductive JournalRecordType where
  | prepare
  | commitWatermark
  | headCommitRange
  | upstreamConfirm
  | legacyCommit
deriving DecidableEq, Repr

/-- Times are nanoseconds since the epoch. -/
structure StoredMetadata where
  version : UInt64 := 0
  createdAt : Int := 0
  updatedAt : Int := 0
deriving DecidableEq

/-- A journal record with all its fields.  Texts are strings of bytes, and `kind` is empty for
records that carry no operation. -/
structure StoredRecord where
  recordType : JournalRecordType
  slot : Int64 := 0
  chainVersion : UInt64 := 0
  sequence : UInt64 := 0
  kind : Option OperationKind := none
  key : Bytes := []
  value : Bytes := []
  metadata : StoredMetadata := {}
  upstreamConfirmedSequence : UInt64 := 0
deriving DecidableEq

/-! ## The binary encoding -/

def encodeJournalRecordType : JournalRecordType → UInt8
  | .prepare => 1
  | .commitWatermark => 2
  | .headCommitRange => 3
  | .upstreamConfirm => 4
  | .legacyCommit => 0

def decodeJournalRecordType (code : UInt8) : JournalRecordType :=
  if code = 1 then .prepare
  else if code = 2 then .commitWatermark
  else if code = 3 then .headCommitRange
  else if code = 4 then .upstreamConfirm
  else .legacyCommit

def encodeOperationKind : Option OperationKind → UInt8
  | some .put => 1
  | some .delete => 2
  | none => 0

def decodeOperationKind (code : UInt8) : Option OperationKind :=
  if code = 1 then some .put
  else if code = 2 then some .delete
  else none

@[simp]
theorem decodeJournalRecordType_encode (recordType : JournalRecordType) :
    decodeJournalRecordType (encodeJournalRecordType recordType) = recordType := by
  cases recordType <;> rfl

@[simp]
theorem decodeOperationKind_encode (kind : Option OperationKind) :
    decodeOperationKind (encodeOperationKind kind) = kind := by
  rcases kind with _ | _ | _ <;> rfl

def putUint64 (value : UInt64) : Bytes :=
  littleEndian 8 value.toNat

def getUint64 (bytes : Bytes) : UInt64 :=
  UInt64.ofNat (readLittleEndian bytes)

@[simp]
theorem length_putUint64 (value : UInt64) : (putUint64 value).length = 8 :=
  Lib.length_littleEndian 8 _

@[simp]
theorem getUint64_putUint64 (value : UInt64) : getUint64 (putUint64 value) = value := by
  have bound := value.toNat_lt
  rw [getUint64, putUint64, Lib.readLittleEndian_littleEndian, Nat.mod_eq_of_lt (by omega),
    UInt64.ofNat_toNat]

/-- The nanoseconds since the epoch as a signed number of 64 bits, which wraps around. -/
def unixNano (time : Int) : UInt64 :=
  (Int64.ofInt time).toUInt64

def timeOfNano (nanoseconds : UInt64) : Int :=
  nanoseconds.toInt64.toInt

def Representable (time : Int) : Prop :=
  -2 ^ 63 ≤ time ∧ time < 2 ^ 63

theorem timeOfNano_unixNano {time : Int} (h : Representable time) :
    timeOfNano (unixNano time) = time := by
  rw [timeOfNano, unixNano, Int64.toInt64_toUInt64, Int64.toInt_ofInt_of_le h.1 h.2]

def binaryJournalHeaderSize : Nat := 68

def binaryHeader (record : StoredRecord) : Bytes :=
  [encodeJournalRecordType record.recordType, encodeOperationKind record.kind, 0, 0] ++
    (putUint64 record.slot.toUInt64 ++ (putUint64 record.chainVersion ++
    (putUint64 record.sequence ++ (putUint64 record.metadata.version ++
    (putUint64 (unixNano record.metadata.createdAt) ++
    (putUint64 (unixNano record.metadata.updatedAt) ++
    (putUint64 record.upstreamConfirmedSequence ++
    (littleEndian 4 record.key.length ++ littleEndian 4 record.value.length))))))))

def encodeBinaryRecord (record : StoredRecord) : Bytes :=
  binaryHeader record ++ (record.key ++ record.value)

/-- Key and value are short enough for their lengths to be written. -/
def StoredRecord.Fits (record : StoredRecord) : Prop :=
  record.key.length < 2 ^ 32 ∧ record.value.length < 2 ^ 32

instance (record : StoredRecord) : Decidable record.Fits :=
  inferInstanceAs (Decidable (_ ∧ _))

def encodeBinaryJournalRecords : List StoredRecord → Except Error Bytes
  | [] => .ok []
  | record :: records => do
    if ¬ record.Fits then
      .error (.sentinel .invalidConfig "journal record payload too large")
    else
      let rest ← encodeBinaryJournalRecords records
      return encodeBinaryRecord record ++ rest

def decodeBinaryRecord (header key value : Bytes) : StoredRecord where
  recordType := decodeJournalRecordType (header.getD 0 0)
  kind := decodeOperationKind (header.getD 1 0)
  slot := (getUint64 (slice header 4 12)).toInt64
  chainVersion := getUint64 (slice header 12 20)
  sequence := getUint64 (slice header 20 28)
  metadata :=
    { version := getUint64 (slice header 28 36)
      createdAt := timeOfNano (getUint64 (slice header 36 44))
      updatedAt := timeOfNano (getUint64 (slice header 44 52)) }
  upstreamConfirmedSequence := getUint64 (slice header 52 60)
  key
  value

/-- A header, a key or a value that is not there as a whole ends the replay without an error. -/
def readBinaryRecord (bytes : Bytes) : Front StoredRecord Error :=
  if bytes.length < binaryJournalHeaderSize then .ended
  else
    let header := bytes.take binaryJournalHeaderSize
    let keyLen := readLittleEndian (slice header 60 64)
    let valueLen := readLittleEndian (slice header 64 68)
    let body := bytes.drop binaryJournalHeaderSize
    if body.length < keyLen then .ended
    else if (body.drop keyLen).length < valueLen then .ended
    else
      .frame (decodeBinaryRecord header (body.take keyLen) ((body.drop keyLen).take valueLen))
        ((body.drop keyLen).drop valueLen)

/-- What is read back of a record: times that cannot be written in nanoseconds have wrapped
around. -/
def binaryImage (record : StoredRecord) : StoredRecord :=
  { record with
    metadata :=
      { record.metadata with
        createdAt := timeOfNano (unixNano record.metadata.createdAt)
        updatedAt := timeOfNano (unixNano record.metadata.updatedAt) } }

theorem length_binaryHeader (record : StoredRecord) :
    (binaryHeader record).length = binaryJournalHeaderSize := by
  simp [binaryHeader, binaryJournalHeaderSize]

theorem decodeBinaryRecord_header (record : StoredRecord) :
    decodeBinaryRecord (binaryHeader record) record.key record.value = binaryImage record := by
  have fields : slice (binaryHeader record) 4 12 = putUint64 record.slot.toUInt64 ∧
      slice (binaryHeader record) 12 20 = putUint64 record.chainVersion ∧
      slice (binaryHeader record) 20 28 = putUint64 record.sequence ∧
      slice (binaryHeader record) 28 36 = putUint64 record.metadata.version ∧
      slice (binaryHeader record) 36 44 = putUint64 (unixNano record.metadata.createdAt) ∧
      slice (binaryHeader record) 44 52 = putUint64 (unixNano record.metadata.updatedAt) ∧
      slice (binaryHeader record) 52 60 = putUint64 record.upstreamConfirmedSequence := by
    rw [binaryHeader]
    refine ⟨?_, ?_, ?_, ?_, ?_, ?_, ?_⟩
    all_goals simp (disch := simp) only [Lib.slice_append_right, Lib.slice_append_left,
      length_putUint64, List.length_cons, List.length_nil, Nat.reduceAdd, Nat.reduceSub]
  obtain ⟨slot, version, sequence, metadata, created, updated, confirmed⟩ := fields
  rw [decodeBinaryRecord, slot, version, sequence, metadata, created, updated, confirmed]
  have first : (binaryHeader record).getD 0 0 = encodeJournalRecordType record.recordType := rfl
  have second : (binaryHeader record).getD 1 0 = encodeOperationKind record.kind := rfl
  simp only [first, second, decodeJournalRecordType_encode, decodeOperationKind_encode,
    getUint64_putUint64, Int64.toInt64_toUInt64, binaryImage]

theorem lengths_binaryHeader {record : StoredRecord} (h : record.Fits) :
    readLittleEndian (slice (binaryHeader record) 60 64) = record.key.length ∧
      readLittleEndian (slice (binaryHeader record) 64 68) = record.value.length := by
  have fields : slice (binaryHeader record) 60 64 = littleEndian 4 record.key.length ∧
      slice (binaryHeader record) 64 68 = littleEndian 4 record.value.length := by
    rw [binaryHeader]
    constructor
    · simp (disch := simp) only [Lib.slice_append_right, Lib.slice_append_left, length_putUint64,
        List.length_cons, List.length_nil, Nat.reduceAdd, Nat.reduceSub]
    · simp (disch := simp) only [Lib.slice_append_right, length_putUint64, Lib.length_littleEndian,
        List.length_cons, List.length_nil, Nat.reduceAdd, Nat.reduceSub]
      rw [slice, List.drop_zero, List.take_of_length_le (by simp)]
  obtain ⟨hkey, hvalue⟩ := h
  rw [fields.1, fields.2, Lib.readLittleEndian_littleEndian, Lib.readLittleEndian_littleEndian]
  exact ⟨Nat.mod_eq_of_lt (by omega), Nat.mod_eq_of_lt (by omega)⟩

theorem readBinaryRecord_header {record : StoredRecord} (h : record.Fits) (body : Bytes) :
    readBinaryRecord (binaryHeader record ++ body) =
      if body.length < record.key.length then .ended
      else if (body.drop record.key.length).length < record.value.length then .ended
      else
        .frame (decodeBinaryRecord (binaryHeader record) (body.take record.key.length)
            ((body.drop record.key.length).take record.value.length))
          ((body.drop record.key.length).drop record.value.length) := by
  have hlength := length_binaryHeader record
  have long : ¬ (binaryHeader record ++ body).length < binaryJournalHeaderSize := by
    rw [List.length_append]
    omega
  have ⟨hkey, hvalue⟩ := lengths_binaryHeader h
  rw [readBinaryRecord, if_neg long]
  dsimp only
  rw [List.take_left' hlength, List.drop_left' hlength, hkey, hvalue]

theorem binary_frames :
    Frames StoredRecord.Fits encodeBinaryRecord binaryImage readBinaryRecord where
  nil := rfl
  whole := by
    intro record rest h
    rw [encodeBinaryRecord, List.append_assoc, List.append_assoc, readBinaryRecord_header h,
      if_neg (by simp), List.drop_left, if_neg (by simp), List.take_left, List.take_left,
      List.drop_left, decodeBinaryRecord_header]
  part := by
    intro record part h hpart hne
    rcases Lib.cut_append hpart with ⟨-, hshort⟩ | ⟨body, rfl, hbody⟩
    · rw [length_binaryHeader] at hshort
      rw [readBinaryRecord, if_pos hshort]
    · have hlt : body.length < record.key.length + record.value.length := by
        have hle := hbody.length_le
        rw [List.length_append] at hle
        refine lt_of_le_of_ne hle fun hlength => hne ?_
        rw [encodeBinaryRecord, hbody.eq_of_length (by rw [hlength, List.length_append])]
      rw [readBinaryRecord_header h, List.length_drop]
      split
      · rfl
      · rw [if_pos (by omega)]

/-! ## The JSON encoding -/

/-- The standard library's encoding of records; not every record can be encoded. -/
structure JSONCodec where
  marshal : StoredRecord → Except Error Bytes
  unmarshal : Bytes → Except Error StoredRecord

def StoredRecord.ValidText (record : StoredRecord) : Prop :=
  (bytesText? record.key).isSome = true ∧ (bytesText? record.value).isSome = true

instance (record : StoredRecord) : Decidable record.ValidText :=
  inferInstanceAs (Decidable (_ ∧ _))

/-- A record whose key and value are text is read back as it was written. -/
def JSONCodec.RoundTrips (json : JSONCodec) : Prop :=
  ∀ record payload, record.ValidText → json.marshal record = .ok payload →
    json.unmarshal payload = .ok record

namespace JSONCodec

variable (json : JSONCodec)

def frame (payload : Bytes) : Bytes :=
  littleEndian 4 payload.length ++ payload

def encodeJSONJournalRecords : List StoredRecord → Except Error Bytes
  | [] => .ok []
  | record :: records => do
    let payload ← (json.marshal record).mapError (.wrapped "marshal journal record")
    if payload.length ≥ 2 ^ 32 then
      .error (.sentinel .invalidConfig "journal record too large")
    else
      let rest ← encodeJSONJournalRecords records
      return frame payload ++ rest

/-- A length or a payload that is not there as a whole ends the replay. -/
def readJSONRecord (bytes : Bytes) : Front StoredRecord Error :=
  if bytes.length < 4 then .ended
  else
    let length := readLittleEndian (bytes.take 4)
    let payload := bytes.drop 4
    if payload.length < length then .ended
    else
      match json.unmarshal (payload.take length) with
      | .ok record => .frame record (payload.drop length)
      | .error err => .refused (.wrapped "unmarshal commit journal record" err)

def recordFrame (record : StoredRecord) : Bytes :=
  match json.marshal record with
  | .ok payload => frame payload
  | .error _ => []

def Codes (record : StoredRecord) : Prop :=
  ∃ payload, json.marshal record = .ok payload ∧ payload.length < 2 ^ 32

variable {json}

theorem readJSONRecord_frame {payload body : Bytes} (h : payload.length < 2 ^ 32) :
    json.readJSONRecord (littleEndian 4 payload.length ++ body) =
      if body.length < payload.length then .ended
      else
        match json.unmarshal (body.take payload.length) with
        | .ok record => .frame record (body.drop payload.length)
        | .error err => .refused (.wrapped "unmarshal commit journal record" err) := by
  have hlength := Lib.length_littleEndian 4 payload.length
  have long : ¬ (littleEndian 4 payload.length ++ body).length < 4 := by
    rw [List.length_append]
    omega
  have hread : readLittleEndian (littleEndian 4 payload.length) = payload.length := by
    rw [Lib.readLittleEndian_littleEndian]
    exact Nat.mod_eq_of_lt (by omega)
  rw [readJSONRecord, if_neg long]
  dsimp only
  rw [List.take_left' hlength, List.drop_left' hlength, hread]

theorem frames (roundTrips : json.RoundTrips) :
    Frames (fun record => record.ValidText ∧ json.Codes record) json.recordFrame id
      json.readJSONRecord where
  nil := rfl
  whole := by
    rintro record rest ⟨htext, payload, hmarshal, hlength⟩
    have hframe : json.recordFrame record = frame payload := by rw [recordFrame, hmarshal]
    rw [hframe, frame, List.append_assoc, readJSONRecord_frame hlength, if_neg (by simp),
      List.take_left, List.drop_left, roundTrips record payload htext hmarshal]
    rfl
  part := by
    rintro record part ⟨htext, payload, hmarshal, hlength⟩ hpart hne
    have hframe : json.recordFrame record = frame payload := by rw [recordFrame, hmarshal]
    rw [hframe] at hpart hne
    rcases Lib.cut_append hpart with ⟨-, hshort⟩ | ⟨body, rfl, hbody⟩
    · rw [Lib.length_littleEndian] at hshort
      rw [readJSONRecord, if_pos hshort]
    · have hlt : body.length < payload.length := by
        refine lt_of_le_of_ne hbody.length_le fun heq => hne ?_
        rw [frame, hbody.eq_of_length heq]
      rw [readJSONRecord_frame hlength, if_pos hlt]

theorem encodeJSONJournalRecords_ok {records : List StoredRecord} {payload : Bytes}
    (h : json.encodeJSONJournalRecords records = .ok payload) :
    payload = records.flatMap json.recordFrame ∧ ∀ record ∈ records, json.Codes record := by
  induction records generalizing payload with
  | nil =>
    cases h
    exact ⟨rfl, List.forall_mem_nil _⟩
  | cons record records ih =>
    rw [encodeJSONJournalRecords] at h
    obtain ⟨bytes, hbytes, h⟩ := Lib.bind_eq_ok.mp h
    have hmarshal : json.marshal record = .ok bytes := by
      cases hcase : json.marshal record with
      | ok found =>
        rw [hcase] at hbytes
        exact hbytes
      | error err =>
        rw [hcase] at hbytes
        cases hbytes
    split at h
    · cases h
    · rename_i hsmall
      obtain ⟨rest, hrest, h⟩ := Lib.bind_eq_ok.mp h
      cases h
      have ⟨hpayload, hcodes⟩ := ih hrest
      refine ⟨?_, List.forall_mem_cons.mpr ⟨⟨bytes, hmarshal, Nat.lt_of_not_ge hsmall⟩, hcodes⟩⟩
      rw [List.flatMap_cons, ← hpayload, recordFrame, hmarshal]

end JSONCodec

theorem encodeBinaryJournalRecords_ok {records : List StoredRecord} {payload : Bytes}
    (h : encodeBinaryJournalRecords records = .ok payload) :
    payload = records.flatMap encodeBinaryRecord ∧ ∀ record ∈ records, record.Fits := by
  induction records generalizing payload with
  | nil =>
    cases h
    exact ⟨rfl, List.forall_mem_nil _⟩
  | cons record records ih =>
    rw [encodeBinaryJournalRecords] at h
    split at h
    · cases h
    · rename_i hfits
      obtain ⟨rest, hrest, h⟩ := Lib.bind_eq_ok.mp h
      cases h
      have ⟨hpayload, hall⟩ := ih hrest
      refine ⟨?_, List.forall_mem_cons.mpr ⟨not_not.mp hfits, hall⟩⟩
      rw [List.flatMap_cons, ← hpayload]

/-! ## The file journal -/

inductive JournalExperiment where
  | baselineJSONSync
  | binarySync
  | binarySegmentSync
  | noSyncBound
deriving DecidableEq, Repr

def JournalExperiment.isBinary : JournalExperiment → Bool
  | .binarySync | .binarySegmentSync => true
  | .baselineJSONSync | .noSyncBound => false

/-- The files of a journal.  Only the segmented journal has older ones; they are kept in the order
of their numbers, which is that of their names up to eight digits. -/
structure FileJournal where
  experiment : JournalExperiment
  segmentCap : Nat := 8 * 2 ^ 20
  older : List Bytes := []
  file : Bytes := []
  closed : Bool := false
deriving DecidableEq

/-- How the calls of an append go.  Nothing is written when the file cannot be looked at, the file
is lost when the full segment does not close or the next one does not open, and a write may stop after
some of its bytes. -/
inductive WriteOutcome where
  | done
  | unseen (err : Error)
  | unclosed (err : Error)
  | unopened (err : Error)
  | cut (written : Nat) (err : Error)
  | unsynced (err : Error)
deriving DecidableEq

/-- The full segment closes, and the next one opens. -/
def WriteOutcome.opens : WriteOutcome → Bool
  | .unclosed _ | .unopened _ => false
  | _ => true

namespace JournalExperiment

variable (json : JSONCodec) (experiment : JournalExperiment)

def encodeRecords (records : List StoredRecord) : Except Error Bytes :=
  if experiment.isBinary then encodeBinaryJournalRecords records
  else json.encodeJSONJournalRecords records

def readRecord : Bytes → Front StoredRecord Error :=
  if experiment.isBinary then readBinaryRecord else json.readJSONRecord

end JournalExperiment

namespace FileJournal

variable (json : JSONCodec) (journal : FileJournal)

def rotates (payload : Bytes) : Bool :=
  decide (journal.experiment = .binarySegmentSync) &&
    decide (journal.file.length + payload.length > journal.segmentCap)

def rotateSegmentIfNeeded (payload : Bytes) : FileJournal :=
  if journal.rotates payload then
    { journal with older := journal.older ++ [journal.file], file := [] }
  else journal

/-- The first bytes of the payload go to the end of the file. -/
def appendPayload (payload : Bytes) (written : Nat) : FileJournal :=
  let journal := journal.rotateSegmentIfNeeded payload
  { journal with file := journal.file ++ payload.take written }

/-- An append that fails where it needs a new segment: the handle stays a closed one. -/
def failRotation (payload : Bytes) (err : Error) : FileJournal × Option Error :=
  if journal.rotates payload then ({ journal with closed := true }, some err)
  else (journal.appendPayload payload payload.length, none)

def appendBatch (records : List StoredRecord) (outcome : WriteOutcome) :
    FileJournal × Option Error :=
  if records = [] then (journal, none)
  else
    match journal.experiment.encodeRecords json records with
    | .error err => (journal, some err)
    | .ok payload =>
      if journal.closed then
        (journal, some (.wrapped "stat commit journal segment" (.fault "file already closed")))
      else
        match outcome with
        | .done => (journal.appendPayload payload payload.length, none)
        | .unseen err => (journal, some (.wrapped "stat commit journal segment" err))
        | .unclosed err =>
          journal.failRotation payload (.wrapped "close commit journal segment" err)
        | .unopened err => journal.failRotation payload (.wrapped "open commit journal segment" err)
        | .cut written err =>
          (journal.appendPayload payload written, some (.wrapped "write commit journal" err))
        | .unsynced err =>
          (journal.appendPayload payload payload.length,
            if journal.experiment = .noSyncBound then none
            else some (.wrapped "sync commit journal" err))

/-- A crash during an append, after some of the bytes are written. -/
def crash (records : List StoredRecord) (written : Nat) : FileJournal :=
  if records = [] then journal
  else
    match journal.experiment.encodeRecords json records with
    | .error _ => journal
    | .ok payload => journal.appendPayload payload written

/-- A process that starts opens the last file. -/
def reopen : FileJournal :=
  { journal with closed := false }

def files : List Bytes :=
  journal.older ++ [journal.file]

/-- The files are read one after another up to the first error. -/
def replayFiles (front : Bytes → Front StoredRecord Error) :
    List Bytes → List StoredRecord × Option Error
  | [] => ([], none)
  | file :: files =>
    let scanned := scan front file
    match scanned.err with
    | some err => (scanned.values, some err)
    | none =>
      let later := replayFiles front files
      (scanned.values ++ later.1, later.2)

structure Replayed where
  records : List StoredRecord
  err : Option Error
  journal : FileJournal

/-- A replay of JSON records takes away what is left of a record that was cut off; a replay of binary
records leaves it in the file. -/
def replay : Replayed :=
  let ended : Option Error :=
    if journal.closed then some (.wrapped "seek commit journal end" (.fault "file already closed"))
    else none
  if journal.experiment.isBinary then
    let read := replayFiles (journal.experiment.readRecord json) journal.files
    ⟨read.1, read.2.or ended, journal⟩
  else
    let scanned := scan (journal.experiment.readRecord json) journal.file
    match scanned.err with
    | some err => ⟨scanned.values, some err, journal⟩
    | none =>
      ⟨scanned.values, ended,
        { journal with file := journal.file.take (journal.file.length - scanned.rest.length) }⟩

end FileJournal

end Craq.Storage
