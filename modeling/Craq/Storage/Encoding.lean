import Craq.Lib.Calendar
import Craq.Lib.Json
import Craq.Storage.Record

/-! # Objects as JSON

What `encoding/json` makes of the objects a store keeps.  Times are written in UTC, and a time outside
the years 0 to 9999 cannot be written: then `json.Marshal` fails.
-/

namespace Craq.Storage

open Lib (Bytes Json jsonBytes bytesJson? timeText readTime InYears)

/-! ## Times -/

/-- The time that a struct starts with: the first of January of the year 1. -/
def zeroTime : Int := -62135596800 * 10 ^ 9

def timeJson (time : Int) : Option Json :=
  (timeText time).map .string

def readTimeJson : Json → Option Int
  | .string text => Lib.readAll readTime text
  | _ => none

variable {json : Json}

theorem readTimeJson_timeJson {time : Int} (h : timeJson time = some json) :
    readTimeJson json = some time := by
  obtain ⟨text, hText, rfl⟩ := Option.map_eq_some_iff.mp h
  exact (Lib.takes_readTime hText).readAll_eq

theorem exists_timeJson_iff {time : Int} : (∃ json, timeJson time = some json) ↔ InYears time := by
  constructor
  · rintro ⟨json, hJson⟩
    obtain ⟨text, hText, -⟩ := Option.map_eq_some_iff.mp hJson
    exact (Option.ite_none_right_eq_some.mp hText).1
  · intro hYears
    rw [timeJson, timeText, if_pos hYears]
    exact ⟨_, rfl⟩

/-! ## Metadata and objects -/

def kindText : OperationKind → String
  | .put => "put"
  | .delete => "delete"

def readKind (json : Json) : Option OperationKind :=
  json.string?.bind fun text => [OperationKind.put, .delete].find? (kindText · = text)

@[simp]
theorem readKind_kindText (kind : OperationKind) :
    readKind (.string (kindText kind).toList) = some kind := by
  cases kind <;> decide

def metadataJson (metadata : ObjectMetadata) : Option Json := do
  let createdAt ← timeJson metadata.createdAt
  let updatedAt ← timeJson metadata.updatedAt
  return .struct [("Version", .number metadata.version), ("CreatedAt", createdAt),
    ("UpdatedAt", updatedAt)]

def readMetadata (json : Json) : Option ObjectMetadata := do
  let version ← json.member "Version" 0 Json.number?
  let createdAt ← json.member "CreatedAt" zeroTime readTimeJson
  let updatedAt ← json.member "UpdatedAt" zeroTime readTimeJson
  return { version := version.toNat, createdAt, updatedAt }

/-- Both times can be written. -/
def ObjectMetadata.Writable (metadata : ObjectMetadata) : Prop :=
  InYears metadata.createdAt ∧ InYears metadata.updatedAt

instance : DecidablePred ObjectMetadata.Writable :=
  fun _ => inferInstanceAs (Decidable (_ ∧ _))

theorem readMetadata_metadataJson {metadata : ObjectMetadata}
    (h : metadataJson metadata = some json) : readMetadata json = some metadata := by
  obtain ⟨createdAt, hCreated, h⟩ := Option.bind_eq_some_iff.mp h
  obtain ⟨updatedAt, hUpdated, h⟩ := Option.bind_eq_some_iff.mp h
  cases h
  simp [readMetadata, Json.member, Json.number?, List.lookup, readTimeJson_timeJson hCreated,
    readTimeJson_timeJson hUpdated]

theorem exists_metadataJson_iff {metadata : ObjectMetadata} :
    (∃ json, metadataJson metadata = some json) ↔ metadata.Writable := by
  constructor
  · rintro ⟨json, hJson⟩
    obtain ⟨createdAt, hCreated, hJson⟩ := Option.bind_eq_some_iff.mp hJson
    obtain ⟨updatedAt, hUpdated, -⟩ := Option.bind_eq_some_iff.mp hJson
    exact ⟨exists_timeJson_iff.mp ⟨_, hCreated⟩, exists_timeJson_iff.mp ⟨_, hUpdated⟩⟩
  · rintro ⟨hCreated, hUpdated⟩
    obtain ⟨createdAt, hCreated⟩ := exists_timeJson_iff.mpr hCreated
    obtain ⟨updatedAt, hUpdated⟩ := exists_timeJson_iff.mpr hUpdated
    rw [metadataJson, hCreated, hUpdated]
    exact ⟨_, rfl⟩

def committedJson (object : CommittedObject) : Option Json := do
  let metadata ← metadataJson object.metadata
  return .struct [("Value", .string object.value.toList), ("Metadata", metadata)]

def readCommittedJson (json : Json) : Option CommittedObject := do
  let value ← json.member "Value" "" Json.string?
  let metadata ← json.member "Metadata" { createdAt := zeroTime, updatedAt := zeroTime } readMetadata
  return { value, metadata }

theorem readCommittedJson_committedJson {object : CommittedObject}
    (h : committedJson object = some json) : readCommittedJson json = some object := by
  obtain ⟨metadata, hMetadata, h⟩ := Option.bind_eq_some_iff.mp h
  cases h
  simp [readCommittedJson, Json.member, Json.string?, List.lookup,
    readMetadata_metadataJson hMetadata]

theorem exists_committedJson {object : CommittedObject} (h : object.metadata.Writable) :
    ∃ json, committedJson object = some json := by
  obtain ⟨metadata, hMetadata⟩ := exists_metadataJson_iff.mpr h
  rw [committedJson, hMetadata]
  exact ⟨_, rfl⟩

/-! ## Marshalling -/

def yearOutsideOfRange : Error :=
  .fault ("json: error calling MarshalJSON for type time.Time: " ++
    "Time.MarshalJSON: year outside of range [0,9999]")

/-- What `json.Marshal` makes of a value whose JSON is given. -/
def marshal : Option Json → Except Error Bytes
  | some json => .ok (jsonBytes json)
  | none => .error yearOutsideOfRange

def unmarshal {A : Type} (read : Json → Option A) (bytes : Bytes) : Except Error A :=
  match (bytesJson? bytes).bind read with
  | some value => .ok value
  | none => .error (.fault "invalid character")

theorem unmarshal_jsonBytes {A : Type} {read : Json → Option A} {value : A}
    (h : read json = some value) : unmarshal read (jsonBytes json) = .ok value := by
  rw [unmarshal, Lib.bytesJson?_jsonBytes, Option.bind_some, h]

end Craq.Storage
