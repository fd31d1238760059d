import Craq.Lib.Run
import Craq.Storage.CommitJournal

/-! # Appends that are cut off

An append may be cut off by a crash or by an error of the disk.  A replay of the JSON journal takes
away what is left of the last record, so that the next batch starts where a whole record ends.  The
binary journals leave it there, and no journal takes it away when the process goes on after the
error: the next batch is then read as the rest of the record that was cut off.
-/

namespace Craq.Storage

open Lib (Bytes Front Frames Remnant FrameStream scan Reaches run guarded Json omitEmpty textBytes
  bytesText?)

/-! ## Runs -/

/-- A call of `AppendBatch`, and whether it returned without an error. -/
structure Attempt where
  records : List StoredRecord
  completed : Bool
deriving DecidableEq

/-- A journal with the calls made so far; the process runs unless it has crashed. -/
structure JournalWorld where
  journal : FileJournal
  attempts : List Attempt := []
  running : Bool := true

inductive JournalEvent where
  | append (records : List StoredRecord) (outcome : WriteOutcome)
  | crash (records : List StoredRecord) (written : Nat)
  | reopen
  | replay

namespace JournalWorld

variable (json : JSONCodec)

-- A node opens its journal and replays it before it appends anything; it does not start when the
-- replay fails.
def step (world : JournalWorld) : JournalEvent → Option JournalWorld
  | .append records outcome =>
    if world.running then
      let called := world.journal.appendBatch json records outcome
      some { world with
        journal := called.1
        attempts := world.attempts ++ [⟨records, called.2.isNone⟩] }
    else none
  | .crash records written =>
    if world.running then
      some
        { journal := world.journal.crash json records written
          attempts := world.attempts ++ [⟨records, false⟩]
          running := false }
    else none
  | .reopen =>
    if world.running then none
    else
      let replayed := world.journal.reopen.replay json
      some { world with journal := replayed.journal, running := replayed.err.isNone }
  | .replay =>
    if world.running then some { world with journal := (world.journal.replay json).journal }
    else none

def replayed (world : JournalWorld) : FileJournal.Replayed :=
  (if world.running then world.journal else world.journal.reopen).replay json

end JournalWorld

/-- The values are what the calls have left: everything that a completed call has appended, and the
first records of a call that was cut off. -/
def Accounts (same : StoredRecord → StoredRecord → Prop) :
    List Attempt → List StoredRecord → Prop
  | [], values => values = []
  | attempt :: attempts, values =>
    ∃ part first later, values = first ++ later ∧ part <+: attempt.records ∧
      (attempt.completed = true → part = attempt.records) ∧ List.Forall₂ same part first ∧
      Accounts same attempts later

/-- A record is read as it was written, up to times that cannot be written in nanoseconds. -/
structure StoredRecord.ReadAs (record read : StoredRecord) : Prop where
  recordType : read.recordType = record.recordType
  slot : read.slot = record.slot
  chainVersion : read.chainVersion = record.chainVersion
  sequence : read.sequence = record.sequence
  kind : read.kind = record.kind
  key : read.key = record.key
  value : read.value = record.value
  upstreamConfirmedSequence : read.upstreamConfirmedSequence = record.upstreamConfirmedSequence
  metadata : Representable record.metadata.createdAt → Representable record.metadata.updatedAt →
    read.metadata = record.metadata

theorem readAs_binaryImage (record : StoredRecord) : record.ReadAs (binaryImage record) where
  recordType := rfl
  slot := rfl
  chainVersion := rfl
  sequence := rfl
  kind := rfl
  key := rfl
  value := rfl
  upstreamConfirmedSequence := rfl
  metadata := by
    intro created updated
    rw [binaryImage, timeOfNano_unixNano created, timeOfNano_unixNano updated]

namespace Accounts

variable {same other : StoredRecord → StoredRecord → Prop} {attempts : List Attempt}
  {values : List StoredRecord}

variable (h : Accounts same attempts values)

include h

theorem map {image : StoredRecord → StoredRecord}
    (read : ∀ record value, same record value → other record (image value)) :
    Accounts other attempts (values.map image) := by
  induction attempts generalizing values with
  | nil =>
    obtain rfl : values = [] := h
    rfl
  | cons attempt attempts ih =>
    obtain ⟨part, first, later, rfl, hpart, hcompleted, hsame, hlater⟩ := h
    refine ⟨part, first.map image, later.map image, List.map_append, hpart, hcompleted, ?_,
      ih hlater⟩
    rw [List.forall₂_map_right_iff]
    exact hsame.imp read

theorem mono (weaker : ∀ record value, same record value → other record value) :
    Accounts other attempts values := by
  have mapped : Accounts other attempts (values.map id) := h.map weaker
  rwa [List.map_id] at mapped

theorem append {attempt : Attempt} {part first : List StoredRecord}
    (hpart : part <+: attempt.records)
    (hcompleted : attempt.completed = true → part = attempt.records)
    (hsame : List.Forall₂ same part first) :
    Accounts same (attempts ++ [attempt]) (values ++ first) := by
  induction attempts generalizing values with
  | nil =>
    obtain rfl : values = [] := h
    exact ⟨part, first, [], by simp, hpart, hcompleted, hsame, rfl⟩
  | cons before attempts ih =>
    obtain ⟨held, read, later, rfl, hheld, hwhole, hread, hlater⟩ := h
    refine ⟨held, read, later ++ first, ?_, hheld, hwhole, hread, ih hlater⟩
    rw [List.append_assoc]

theorem length_le :
    ((attempts.filter Attempt.completed).flatMap (·.records)).length ≤ values.length := by
  induction attempts generalizing values with
  | nil => exact Nat.zero_le _
  | cons attempt attempts ih =>
    obtain ⟨part, first, later, rfl, -, hcompleted, hsame, hlater⟩ := h
    have hrest := ih hlater
    rw [List.length_append]
    by_cases hdone : attempt.completed = true
    · have hlength := hsame.length_eq
      rw [hcompleted hdone] at hlength
      rw [List.filter_cons_of_pos hdone, List.flatMap_cons, List.length_append]
      omega
    · rw [List.filter_cons_of_neg hdone]
      omega

end Accounts

/-! ## What a journal holds -/

namespace JournalExperiment

variable (json : JSONCodec) (experiment : JournalExperiment)

def frameOf : StoredRecord → Bytes :=
  if experiment.isBinary then encodeBinaryRecord else json.recordFrame

def Encodes (record : StoredRecord) : Prop :=
  if experiment.isBinary then record.Fits else record.ValidText ∧ json.Codes record

def imageOf : StoredRecord → StoredRecord :=
  if experiment.isBinary then binaryImage else id

/-- The JSON journal is given text. -/
def Admits (records : List StoredRecord) : Prop :=
  experiment.isBinary = false → ∀ record ∈ records, record.ValidText

instance (records : List StoredRecord) : Decidable (experiment.Admits records) :=
  inferInstanceAs (Decidable (_ = false → _))

/-- The JSON journal reads text back as it was written. -/
def Faithful : Prop :=
  experiment.isBinary = false → json.RoundTrips

variable {json experiment}

theorem Faithful.frames (h : experiment.Faithful json) :
    Frames (experiment.Encodes json) (experiment.frameOf json) experiment.imageOf
      (experiment.readRecord json) := by
  cases hbinary : experiment.isBinary with
  | true =>
    have fits : experiment.Encodes json = StoredRecord.Fits := by
      funext record
      rw [Encodes, hbinary, if_pos rfl]
    rw [fits, frameOf, imageOf, readRecord, hbinary]
    exact binary_frames
  | false =>
    have codes : experiment.Encodes json = fun record => record.ValidText ∧ json.Codes record := by
      funext record
      rw [Encodes, hbinary, if_neg Bool.false_ne_true]
    rw [codes, frameOf, imageOf, readRecord, hbinary]
    exact JSONCodec.frames (h hbinary)

theorem encodeRecords_ok {records : List StoredRecord} {payload : Bytes}
    (admits : experiment.Admits records) (h : experiment.encodeRecords json records = .ok payload) :
    FrameStream (experiment.Encodes json) (experiment.frameOf json) payload records [] := by
  rw [encodeRecords] at h
  cases hbinary : experiment.isBinary with
  | true =>
    rw [hbinary, if_pos rfl] at h
    have ⟨hpayload, hfits⟩ := encodeBinaryJournalRecords_ok h
    refine ⟨?_, ?_, .inl rfl⟩
    · rw [List.append_nil, frameOf, hbinary, hpayload]
      rfl
    · intro record hmem
      rw [Encodes, hbinary, if_pos rfl]
      exact hfits record hmem
  | false =>
    rw [hbinary, if_neg Bool.false_ne_true] at h
    have ⟨hpayload, hcodes⟩ := JSONCodec.encodeJSONJournalRecords_ok h
    refine ⟨?_, ?_, .inl rfl⟩
    · rw [List.append_nil, frameOf, hbinary, hpayload]
      rfl
    · intro record hmem
      rw [Encodes, hbinary, if_neg Bool.false_ne_true]
      exact ⟨admits hbinary record hmem, hcodes record hmem⟩

theorem readAs_imageOf (experiment : JournalExperiment) (record : StoredRecord) :
    record.ReadAs (experiment.imageOf record) := by
  rw [imageOf]
  split
  · exact readAs_binaryImage record
  · exact ⟨rfl, rfl, rfl, rfl, rfl, rfl, rfl, rfl, fun _ _ => rfl⟩

end JournalExperiment

namespace FileJournal

variable (json : JSONCodec) (journal : FileJournal)

/-- If anything is written for the batch, the file it goes to ends with a whole record. -/
def Whole (records : List StoredRecord) : Prop :=
  if records = [] then True
  else
    match journal.experiment.encodeRecords json records with
    | .error _ => True
    | .ok payload =>
      (scan (journal.experiment.readRecord json) (journal.rotateSegmentIfNeeded payload).file).rest = []

instance (records : List StoredRecord) : Decidable (journal.Whole json records) :=
  if hempty : records = [] then .isTrue (by rw [Whole, if_pos hempty]; trivial)
  else
    match hencoded : journal.experiment.encodeRecords json records with
    | .error _ => .isTrue (by rw [Whole, if_neg hempty, hencoded]; trivial)
    | .ok payload =>
      decidable_of_iff ((scan (journal.experiment.readRecord json)
        (journal.rotateSegmentIfNeeded payload).file).rest = [])
        (by rw [Whole, if_neg hempty, hencoded])

/-- The records are what is whole in the files, and the last file ends with the rest of a record that
was cut off. -/
structure Holds (records : List StoredRecord) (rest : Bytes) : Prop where
  opened : journal.closed = false
  single : journal.experiment ≠ .binarySegmentSync → journal.older = []
  stored : ∃ (parts : List (List StoredRecord × Bytes)) (values : List StoredRecord),
    List.Forall₂ (fun bytes held =>
      FrameStream (journal.experiment.Encodes json) (journal.experiment.frameOf json) bytes held.1
        held.2) journal.older parts ∧
    FrameStream (journal.experiment.Encodes json) (journal.experiment.frameOf json) journal.file
      values rest ∧
    records = parts.flatMap (·.1) ++ values

variable {json journal}

/-- Files that hold whole records and at most a part of one more are read without an error. -/
theorem replayFiles_eq {A : Type} {valid : A → Prop} {frame : A → Bytes} {image : A → StoredRecord}
    {front : Bytes → Front StoredRecord Error} (frames : Frames valid frame image front)
    {files : List Bytes} {parts : List (List A × Bytes)}
    (h : List.Forall₂ (fun bytes held => FrameStream valid frame bytes held.1 held.2) files parts) :
    replayFiles front files = ((parts.flatMap (·.1)).map image, none) := by
  induction h with
  | nil => rfl
  | cons stream _ ih =>
    rw [replayFiles, frames.scan_eq stream, ih]
    simp only [List.flatMap_cons, List.map_append]

namespace Holds

variable {records batch : List StoredRecord} {payload rest : Bytes}

theorem rest_eq (h : journal.Holds json records rest)
    (faithful : journal.experiment.Faithful json) :
    (scan (journal.experiment.readRecord json) journal.file).rest = rest := by
  obtain ⟨parts, values, -, stream, -⟩ := h.stored
  rw [faithful.frames.scan_eq stream]

theorem replay (h : journal.Holds json records rest)
    (faithful : journal.experiment.Faithful json) :
    (journal.replay json).err = none ∧
      (journal.replay json).records = records.map journal.experiment.imageOf ∧
      (journal.replay json).journal.experiment = journal.experiment ∧
      (journal.replay json).journal.Holds json records
        (if journal.experiment.isBinary then rest else []) := by
  have frames := faithful.frames
  obtain ⟨parts, values, older, stream, rfl⟩ := h.stored
  rw [FileJournal.replay, h.opened]
  dsimp only
  cases hbinary : journal.experiment.isBinary with
  | true =>
    have all := List.rel_append older (List.Forall₂.cons (b := (values, rest)) stream .nil)
    rw [if_pos rfl, if_pos rfl, files, replayFiles_eq frames all]
    refine ⟨rfl, ?_, rfl, h⟩
    simp
  | false =>
    have alone : journal.older = [] := h.single fun hsegmented => by
      rw [hsegmented] at hbinary
      cases hbinary
    obtain rfl : parts = [] := by
      rw [alone] at older
      cases older
      rfl
    rw [if_neg Bool.false_ne_true, if_neg Bool.false_ne_true, frames.scan_eq stream]
    refine ⟨rfl, rfl, rfl, rfl, h.single, [], values, ?_, stream.truncate, rfl⟩
    rw [alone]
    exact .nil

theorem rotateSegmentIfNeeded (h : journal.Holds json records rest) (payload : Bytes) :
    (journal.rotateSegmentIfNeeded payload).Holds json records
      (if journal.rotates payload then [] else rest) := by
  rw [FileJournal.rotateSegmentIfNeeded]
  split
  · rename_i hrotates
    rw [rotates, Bool.and_eq_true, decide_eq_true_eq] at hrotates
    obtain ⟨parts, values, older, stream, rfl⟩ := h.stored
    refine ⟨h.opened, fun hother => absurd hrotates.1 hother, parts ++ [(values, rest)], [], ?_,
      .empty, ?_⟩
    · exact List.rel_append older (.cons stream .nil)
    · simp
  · exact h

theorem extend (h : journal.Holds json records []) {cut part : Bytes}
    (stream : FrameStream (journal.experiment.Encodes json) (journal.experiment.frameOf json) cut
      batch part) :
    { journal with file := journal.file ++ cut }.Holds json (records ++ batch) part := by
  obtain ⟨parts, values, older, held, rfl⟩ := h.stored
  refine ⟨h.opened, h.single, parts, values ++ batch, older, held.append stream, ?_⟩
  rw [List.append_assoc]

theorem appendPayload (h : journal.Holds json records rest)
    (faithful : journal.experiment.Faithful json)
    (whole : (scan (journal.experiment.readRecord json)
      (journal.rotateSegmentIfNeeded payload).file).rest = [])
    (stream : FrameStream (journal.experiment.Encodes json) (journal.experiment.frameOf json)
      payload batch []) (written : Nat) :
    ∃ part later, part <+: batch ∧ (payload.length ≤ written → part = batch ∧ later = []) ∧
      (journal.appendPayload payload written).experiment = journal.experiment ∧
      (journal.appendPayload payload written).Holds json (records ++ part) later := by
  have same : (journal.rotateSegmentIfNeeded payload).experiment = journal.experiment := by
    rw [FileJournal.rotateSegmentIfNeeded]
    split <;> rfl
  have rotated := h.rotateSegmentIfNeeded payload
  rw [← same] at faithful whole
  rw [rotated.rest_eq faithful] at whole
  rw [whole] at rotated
  by_cases hall : payload.length ≤ written
  · rw [← same] at stream
    refine ⟨batch, [], List.prefix_refl _, fun _ => ⟨rfl, rfl⟩, same, ?_⟩
    rw [FileJournal.appendPayload, List.take_of_length_le hall]
    exact rotated.extend stream
  · have hcut : payload.take written <+: batch.flatMap (journal.experiment.frameOf json) := by
      rw [← List.append_nil (batch.flatMap _), ← stream.bytes_eq]
      exact List.take_prefix _ _
    obtain ⟨part, later, hpart, hstream⟩ := Lib.exists_stream_of_cut stream.all_valid hcut
    rw [← same] at hstream
    exact ⟨part, later, hpart, fun hle => absurd hle hall, same, rotated.extend hstream⟩

theorem append_nil (h : journal.Holds json records rest) :
    journal.Holds json (records ++ []) rest := by
  rw [List.append_nil]
  exact h

section Batch

variable (h : journal.Holds json records rest) (faithful : journal.experiment.Faithful json)
  (admits : journal.experiment.Admits batch) (whole : journal.Whole json batch)

include h faithful admits whole

theorem appendEncoded (hbatch : batch ≠ [])
    (hencoded : journal.experiment.encodeRecords json batch = .ok payload) (written : Nat) :
    ∃ part later, part <+: batch ∧ (payload.length ≤ written → part = batch ∧ later = []) ∧
      (journal.appendPayload payload written).experiment = journal.experiment ∧
      (journal.appendPayload payload written).Holds json (records ++ part) later := by
  rw [Whole, if_neg hbatch, hencoded] at whole
  exact h.appendPayload faithful whole (JournalExperiment.encodeRecords_ok admits hencoded) written

/-- Whatever a call does, the first records of the batch are appended, and all of them if the call
returns without an error. -/
theorem appendBatch {outcome : WriteOutcome} (opens : outcome.opens = true) :
    ∃ part later, part <+: batch ∧
      ((journal.appendBatch json batch outcome).2 = none → part = batch) ∧
      (outcome = .done → later = [] ∨ later = rest) ∧
      (journal.appendBatch json batch outcome).1.experiment = journal.experiment ∧
      (journal.appendBatch json batch outcome).1.Holds json (records ++ part) later := by
  have unchanged := h.append_nil
  rw [FileJournal.appendBatch]
  by_cases hempty : batch = []
  · rw [if_pos hempty]
    exact ⟨[], rest, List.nil_prefix, fun _ => hempty.symm, fun _ => .inr rfl, rfl, unchanged⟩
  rw [if_neg hempty]
  cases hencoded : journal.experiment.encodeRecords json batch with
  | error err => exact ⟨[], rest, List.nil_prefix, nofun, fun _ => .inr rfl, rfl, unchanged⟩
  | ok payload =>
    dsimp only
    have written := h.appendEncoded faithful admits whole hempty hencoded
    rw [h.opened, if_neg Bool.false_ne_true]
    cases outcome with
    | done =>
      obtain ⟨part, later, hpart, hall, same, holds⟩ := written payload.length
      have ⟨hbatch, hlater⟩ := hall le_rfl
      exact ⟨part, later, hpart, fun _ => hbatch, fun _ => .inl hlater, same, holds⟩
    | unseen err => exact ⟨[], rest, List.nil_prefix, nofun, nofun, rfl, unchanged⟩
    | unclosed err | unopened err => cases opens
    | cut count err =>
      obtain ⟨part, later, hpart, -, same, holds⟩ := written count
      exact ⟨part, later, hpart, nofun, nofun, same, holds⟩
    | unsynced err =>
      obtain ⟨part, later, hpart, hall, same, holds⟩ := written payload.length
      exact ⟨part, later, hpart, fun _ => (hall le_rfl).1, nofun, same, holds⟩

theorem crash (written : Nat) :
    ∃ part later, part <+: batch ∧
      (journal.crash json batch written).experiment = journal.experiment ∧
      (journal.crash json batch written).Holds json (records ++ part) later := by
  rw [FileJournal.crash]
  by_cases hempty : batch = []
  · rw [if_pos hempty]
    exact ⟨[], rest, List.nil_prefix, rfl, h.append_nil⟩
  rw [if_neg hempty]
  cases hencoded : journal.experiment.encodeRecords json batch with
  | error err => exact ⟨[], rest, List.nil_prefix, rfl, h.append_nil⟩
  | ok payload =>
    obtain ⟨part, later, hpart, -, same, holds⟩ :=
      h.appendEncoded faithful admits whole hempty hencoded written
    exact ⟨part, later, hpart, same, holds⟩

end Batch

theorem whole (h : journal.Holds json records []) (faithful : journal.experiment.Faithful json)
    (hjson : journal.experiment.isBinary = false) (batch : List StoredRecord) :
    journal.Whole json batch := by
  have stays : ∀ payload, journal.rotateSegmentIfNeeded payload = journal := by
    intro payload
    rw [FileJournal.rotateSegmentIfNeeded, if_neg]
    rw [rotates, Bool.and_eq_true, decide_eq_true_eq]
    rintro ⟨hsegmented, -⟩
    rw [hsegmented] at hjson
    cases hjson
  rw [Whole]
  split
  · trivial
  split
  · trivial
  · rw [stays]
    exact h.rest_eq faithful

end Holds

end FileJournal

/-! ## Steps -/

/-- The event is not an append that returns an error. -/
def JournalEvent.Completes : JournalEvent → Prop
  | .append _ outcome => outcome = .done
  | _ => True

def JournalEvent.Continues : JournalEvent → Prop
  | .crash _ _ => False
  | _ => True

def JournalEvent.ValidText : JournalEvent → Prop
  | .append records _ | .crash records _ => ∀ record ∈ records, record.ValidText
  | .reopen | .replay => True

instance : DecidablePred JournalEvent.Completes
  | .append _ _ => inferInstanceAs (Decidable (_ = _))
  | .crash _ _ | .reopen | .replay => .isTrue trivial

instance : DecidablePred JournalEvent.Continues
  | .crash _ _ => .isFalse id
  | .append _ _ | .reopen | .replay => .isTrue trivial

namespace JournalWorld

def fresh (experiment : JournalExperiment) (segmentCap : Nat) : JournalWorld where
  journal := { experiment, segmentCap }

/-- Batches are written only behind whole records, and no segment fails to close or to open. -/
def Clean (json : JSONCodec) (world : JournalWorld) : JournalEvent → Prop
  | .append records outcome =>
    world.journal.experiment.Admits records ∧ world.journal.Whole json records ∧
      outcome.opens = true
  | .crash records _ => world.journal.experiment.Admits records ∧ world.journal.Whole json records
  | .reopen | .replay => True

instance (json : JSONCodec) (world : JournalWorld) : DecidablePred (world.Clean json)
  | .append _ _ => inferInstanceAs (Decidable (_ ∧ _ ∧ _))
  | .crash _ _ => inferInstanceAs (Decidable (_ ∧ _))
  | .reopen | .replay => .isTrue trivial

/-- The files hold what the calls have left in them. -/
def Sound (json : JSONCodec) (world : JournalWorld) (rest : Bytes) : Prop :=
  ∃ records, world.journal.Holds json records rest ∧ Accounts Eq world.attempts records

variable {json : JSONCodec} {world next : JournalWorld} {event : JournalEvent} {rest : Bytes}

theorem fresh_sound (experiment : JournalExperiment) (segmentCap : Nat) :
    (fresh experiment segmentCap).Sound json [] :=
  ⟨[], ⟨rfl, fun _ => rfl, [], [], .nil, .empty, rfl⟩, rfl⟩

/-- One event.  If a JSON journal ends with a whole record while the process runs, it does so
afterwards, too. -/
theorem Sound.step (h : world.Sound json rest)
    (faithful : world.journal.experiment.Faithful json) (clean : world.Clean json event)
    (hstep : world.step json event = some next) :
    next.journal.experiment = world.journal.experiment ∧ ∃ later, next.Sound json later ∧
      (world.journal.experiment.isBinary = false → event.Completes →
        (world.running = true → rest = []) → next.running = true → later = []) := by
  obtain ⟨records, holds, accounts⟩ := h
  cases event with
  | append batch outcome =>
    obtain ⟨admits, whole, opens⟩ := clean
    rw [JournalWorld.step] at hstep
    split at hstep
    · rename_i hrunning
      cases hstep
      obtain ⟨part, later, hpart, hall, hlater, same, appended⟩ :=
        holds.appendBatch faithful admits whole opens
      refine ⟨same, later, ⟨records ++ part, appended, accounts.append hpart ?_ (List.forall₂_refl _)⟩,
        ?_⟩
      · intro hcompleted
        exact hall (Option.isNone_iff_eq_none.mp hcompleted)
      · intro _ hdone hrest _
        rcases hlater hdone with hnil | hsame
        · exact hnil
        · rw [hsame, hrest hrunning]
    · cases hstep
  | crash batch written =>
    obtain ⟨admits, whole⟩ := clean
    rw [JournalWorld.step] at hstep
    split at hstep
    · cases hstep
      obtain ⟨part, later, hpart, same, appended⟩ := holds.crash faithful admits whole written
      exact ⟨same, later,
        ⟨records ++ part, appended, accounts.append hpart nofun (List.forall₂_refl _)⟩, nofun⟩
    · cases hstep
  | reopen =>
    rw [JournalWorld.step] at hstep
    split at hstep
    · cases hstep
    · cases hstep
      have reopened : world.journal.reopen.Holds json records rest :=
        ⟨rfl, holds.single, holds.stored⟩
      obtain ⟨-, -, same, replayed⟩ := reopened.replay faithful
      refine ⟨same, _, ⟨records, replayed, accounts⟩, ?_⟩
      intro hjson _ _ _
      exact if_neg (by rw [FileJournal.reopen, hjson]; exact Bool.false_ne_true)
  | replay =>
    rw [JournalWorld.step] at hstep
    split at hstep
    · cases hstep
      obtain ⟨-, -, same, replayed⟩ := holds.replay faithful
      refine ⟨same, _, ⟨records, replayed, accounts⟩, ?_⟩
      intro hjson _ _ _
      exact if_neg (by rw [hjson]; exact Bool.false_ne_true)
    · cases hstep

theorem running_of_append {records : List StoredRecord} {outcome : WriteOutcome}
    (h : world.step json (.append records outcome) = some next) : world.running = true := by
  rw [JournalWorld.step] at h
  split at h
  · assumption
  · cases h

theorem step_crash (running : world.running = true) (records : List StoredRecord) (written : Nat) :
    world.step json (.crash records written) = some
      { journal := world.journal.crash json records written
        attempts := world.attempts ++ [⟨records, false⟩]
        running := false } :=
  if_pos running

theorem running_of_crash {records : List StoredRecord} {written : Nat}
    (h : world.step json (.crash records written) = some next) : world.running = true := by
  rw [JournalWorld.step] at h
  split at h
  · assumption
  · cases h

theorem Sound.replayed (h : world.Sound json rest)
    (faithful : world.journal.experiment.Faithful json) :
    (world.replayed json).err = none ∧
      Accounts (fun record read => read = world.journal.experiment.imageOf record) world.attempts
        (world.replayed json).records := by
  obtain ⟨records, holds, accounts⟩ := h
  have reopened : world.journal.reopen.Holds json records rest := ⟨rfl, holds.single, holds.stored⟩
  have read : (world.replayed json).err = none ∧
      (world.replayed json).records = records.map world.journal.experiment.imageOf := by
    rw [JournalWorld.replayed]
    split
    · obtain ⟨herr, hrecords, -, -⟩ := holds.replay faithful
      exact ⟨herr, hrecords⟩
    · obtain ⟨herr, hrecords, -, -⟩ := reopened.replay faithful
      exact ⟨herr, hrecords⟩
  refine ⟨read.1, ?_⟩
  rw [read.2]
  exact accounts.map fun _ _ hsame => congrArg _ hsame.symm

theorem Sound.reaches {experiment : JournalExperiment} {segmentCap : Nat}
    (faithful : experiment.Faithful json) {allowed : JournalWorld → JournalEvent → Prop}
    (clean : ∀ world event, allowed world event → world.Clean json event)
    (h : Reaches (JournalWorld.step json) allowed (fresh experiment segmentCap) world) :
    world.journal.experiment = experiment ∧ ∃ rest, world.Sound json rest := by
  let Kept := fun world : JournalWorld =>
    world.journal.experiment = experiment ∧ ∃ rest, world.Sound json rest
  have kept : Kept world := by
    apply h.invariant
    · exact ⟨rfl, [], fresh_sound experiment segmentCap⟩
    · rintro world event next ⟨same, rest, sound⟩ hallowed hstep
      obtain ⟨hnext, later, hsound, -⟩ :=
        sound.step (same ▸ faithful) (clean world event hallowed) hstep
      exact ⟨hnext.trans same, later, hsound⟩
  exact kept

end JournalWorld

/-! ## JSON records and crashes -/

section JSON

variable {json : JSONCodec} (roundTrips : json.RoundTrips) {experiment : JournalExperiment}
  (hjson : experiment.isBinary = false) {segmentCap : Nat} {world : JournalWorld}
  (h : Reaches (JournalWorld.step json) (fun _ event => event.Completes ∧ event.ValidText)
    (JournalWorld.fresh experiment segmentCap) world)

include roundTrips hjson h

theorem json_journal_sound : world.journal.experiment = experiment ∧
    ∃ rest, world.Sound json rest ∧ (world.running = true → rest = []) := by
  let Kept := fun world : JournalWorld => world.journal.experiment = experiment ∧
    ∃ rest, world.Sound json rest ∧ (world.running = true → rest = [])
  have faithful : experiment.Faithful json := fun _ => roundTrips
  have kept : Kept world := by
    apply h.invariant
    · exact ⟨rfl, [], JournalWorld.fresh_sound experiment segmentCap, fun _ => rfl⟩
    · rintro world event next ⟨same, rest, sound, settled⟩ ⟨completes, text⟩ hstep
      obtain ⟨records, holds, -⟩ := id sound
      have whole : world.running = true → ∀ batch, world.journal.Whole json batch := by
        intro hrunning batch
        obtain rfl := settled hrunning
        exact holds.whole (same ▸ faithful) (same ▸ hjson) batch
      have clean : world.Clean json event := by
        cases event with
        | append batch outcome =>
          obtain rfl : outcome = .done := completes
          exact ⟨fun _ => text, whole (JournalWorld.running_of_append hstep) batch, rfl⟩
        | crash batch written =>
          exact ⟨fun _ => text, whole (JournalWorld.running_of_crash hstep) batch⟩
        | reopen | replay => trivial
      obtain ⟨hnext, later, hsound, hlater⟩ := sound.step (same ▸ faithful) clean hstep
      exact ⟨hnext.trans same, later, hsound, hlater (same ▸ hjson) completes settled⟩
  exact kept

theorem json_journal_reopens (stopped : world.running = false) :
    ∃ next, world.step json .reopen = some next ∧ next.running = true ∧
      next.attempts = world.attempts := by
  obtain ⟨same, rest, sound, -⟩ := json_journal_sound roundTrips hjson h
  obtain ⟨herr, -⟩ := sound.replayed (same ▸ fun _ => roundTrips)
  rw [JournalWorld.replayed, stopped, if_neg Bool.false_ne_true] at herr
  rw [JournalWorld.step, stopped, if_neg Bool.false_ne_true]
  exact ⟨_, rfl, Option.isNone_iff_eq_none.mpr herr, rfl⟩

theorem json_journal_appends (running : world.running = true) {records : List StoredRecord}
    {payload : Bytes} (encoded : experiment.encodeRecords json records = .ok payload) :
    ∃ next, world.step json (.append records .done) = some next ∧ next.running = true ∧
      next.attempts = world.attempts ++ [⟨records, true⟩] := by
  obtain ⟨same, rest, ⟨held, holds, -⟩, -⟩ := json_journal_sound roundTrips hjson h
  have completed : (world.journal.appendBatch json records .done).2 = none := by
    rw [FileJournal.appendBatch]
    split
    · rfl
    · rw [same, encoded, holds.opened]
      rfl
  rw [JournalWorld.step, if_pos running]
  refine ⟨_, rfl, running, ?_⟩
  rw [completed]
  rfl

/-- A process appends a batch, crashes in the next one and is started again. -/
theorem json_journal_cycle (running : world.running = true) (first torn : List StoredRecord)
    {payload : Bytes} (encoded : experiment.encodeRecords json first = .ok payload)
    (text : ∀ record ∈ first ++ torn, record.ValidText) (written : Nat) :
    ∃ next, Reaches (JournalWorld.step json) (fun _ event => event.Completes ∧ event.ValidText)
        (JournalWorld.fresh experiment segmentCap) next ∧ next.running = true ∧
      next.attempts = world.attempts ++ [⟨first, true⟩, ⟨torn, false⟩] := by
  rw [List.forall_mem_append] at text
  obtain ⟨appended, hAppend, hRunning, hAppended⟩ :=
    json_journal_appends roundTrips hjson h running encoded
  have texts : (JournalEvent.append first .done).Completes ∧
      (JournalEvent.append first .done).ValidText := ⟨rfl, text.1⟩
  have cut : (JournalEvent.crash torn written).Completes ∧
      (JournalEvent.crash torn written).ValidText := ⟨trivial, text.2⟩
  have crashed := (h.tail texts hAppend).tail cut (JournalWorld.step_crash hRunning torn written)
  obtain ⟨next, hReopen, hNext, hAttempts⟩ := json_journal_reopens roundTrips hjson crashed rfl
  have calm : JournalEvent.reopen.Completes ∧ JournalEvent.reopen.ValidText := ⟨trivial, trivial⟩
  refine ⟨next, crashed.tail calm hReopen, hNext, ?_⟩
  rw [hAttempts, hAppended, List.append_assoc]
  rfl

end JSON

/-- After any number of crashes a JSON journal delivers the records of all completed appends, and of
an append that was cut off at most the first ones. -/
theorem json_journal_survives_crashes {json : JSONCodec} (roundTrips : json.RoundTrips)
    {experiment : JournalExperiment} (hjson : experiment.isBinary = false) {segmentCap : Nat}
    {world : JournalWorld}
    (h : Reaches (JournalWorld.step json) (fun _ event => event.Completes ∧ event.ValidText)
      (JournalWorld.fresh experiment segmentCap) world) :
    (world.replayed json).err = none ∧
      Accounts Eq world.attempts (world.replayed json).records := by
  obtain ⟨same, rest, sound, -⟩ := json_journal_sound roundTrips hjson h
  obtain ⟨herr, accounts⟩ := sound.replayed (same ▸ fun _ => roundTrips)
  refine ⟨herr, accounts.mono ?_⟩
  intro record read hread
  rw [hread, same, JournalExperiment.imageOf, hjson]
  rfl

/-! ### The encoding of `encoding/json` -/

def recordTypeText : JournalRecordType → String
  | .prepare => "prepare"
  | .commitWatermark => "commit_watermark"
  | .headCommitRange => "head_commit_range"
  | .upstreamConfirm => "upstream_confirm"
  | .legacyCommit => "commit"

def readRecordType (json : Json) : Option JournalRecordType :=
  json.string?.bind fun text =>
    [JournalRecordType.prepare, .commitWatermark, .headCommitRange, .upstreamConfirm,
      .legacyCommit].find? (recordTypeText · = text)

def recordFields (record : StoredRecord) (key value : String) (metadata : Json) :
    List (String × Json) :=
  [("type", .string (recordTypeText record.recordType).toList),
    ("slot", .number record.slot.toInt), ("chain_version", .number record.chainVersion.toNat),
    ("sequence", .number record.sequence.toNat)] ++
  (record.kind.toList.map fun kind => ("kind", .string (kindText kind).toList)) ++
  omitEmpty "key" (key ≠ "") (.string key.toList) ++
  omitEmpty "value" (value ≠ "") (.string value.toList) ++ [("metadata", metadata)] ++
  omitEmpty "upstream_confirmed_sequence" (record.upstreamConfirmedSequence ≠ 0)
    (.number record.upstreamConfirmedSequence.toNat)

def recordJson (record : StoredRecord) : Option Json := do
  let key ← bytesText? record.key
  let value ← bytesText? record.value
  let metadata ← metadataJson
    ⟨record.metadata.version.toNat, record.metadata.createdAt, record.metadata.updatedAt⟩
  return .struct (recordFields record key value metadata)

def readRecordJson (json : Json) : Option StoredRecord := do
  let recordType ← json.member "type" .legacyCommit readRecordType
  let slot ← json.member "slot" 0 Json.number?
  let chainVersion ← json.member "chain_version" 0 Json.number?
  let sequence ← json.member "sequence" 0 Json.number?
  let kind ← json.member "kind" none fun json => (readKind json).map some
  let key ← json.member "key" "" Json.string?
  let value ← json.member "value" "" Json.string?
  let metadata ← json.member "metadata" { createdAt := zeroTime, updatedAt := zeroTime } readMetadata
  let upstream ← json.member "upstream_confirmed_sequence" 0 Json.number?
  return {
    recordType
    slot := .ofInt slot
    chainVersion := .ofNat chainVersion.toNat
    sequence := .ofNat sequence.toNat
    kind
    key := textBytes key
    value := textBytes value
    metadata := ⟨.ofNat metadata.version, metadata.createdAt, metadata.updatedAt⟩
    upstreamConfirmedSequence := .ofNat upstream.toNat }

theorem readRecordType_recordTypeText (recordType : JournalRecordType) :
    readRecordType (.string (recordTypeText recordType).toList) = some recordType := by
  cases recordType <;> decide

theorem lookup_kind (kind : Option OperationKind) (name : String) :
    (kind.toList.map fun kind => ("kind", Json.string (kindText kind).toList)).lookup name =
      if name = "kind" then kind.map fun kind => .string (kindText kind).toList else none := by
  by_cases hName : name = "kind" <;> cases kind <;>
    simp [List.lookup, hName, beq_eq_false_iff_ne.mpr]

theorem readRecordJson_recordJson {record : StoredRecord} {json : Json}
    (h : recordJson record = some json) : readRecordJson json = some record := by
  obtain ⟨key, hkey, h⟩ := Option.bind_eq_some_iff.mp h
  obtain ⟨value, hvalue, h⟩ := Option.bind_eq_some_iff.mp h
  obtain ⟨metadata, hmetadata, h⟩ := Option.bind_eq_some_iff.mp h
  cases h
  have text : ∀ text : String, (if text = "" then none else some (Json.string text.toList)).elim
      (some "") Json.string? = some text := by
    intro text
    by_cases hempty : text = "" <;> simp [hempty, Json.string?]
  have number : ∀ number : UInt64, (if number = 0 then none else
      some (Json.number (number.toNat : Int))).elim (some 0) Json.number? =
        some (number.toNat : Int) := by
    intro number
    by_cases hzero : number = 0 <;> simp [hzero, Json.number?]
  have kind : (record.kind.map fun kind => Json.string (kindText kind).toList).elim (some none)
      (fun json => (readKind json).map some) = some record.kind := by
    cases record.kind <;> simp
  simp [readRecordJson, Json.member, recordFields, List.lookup_append, lookup_kind, List.lookup,
    readRecordType_recordTypeText, Json.number?, readMetadata_metadataJson hmetadata, kind, text,
    number, Lib.textBytes_of_bytesText? hkey, Lib.textBytes_of_bytesText? hvalue]

/-- Records whose key and value are text, as `encoding/json` writes them. -/
def journalJSON : JSONCodec where
  marshal record := marshal (recordJson record)
  unmarshal := unmarshal readRecordJson

theorem journalJSON_roundTrips : journalJSON.RoundTrips := by
  intro record payload _ hmarshal
  have hrecord : marshal (recordJson record) = .ok payload := hmarshal
  cases hjson : recordJson record with
  | none =>
    rw [hjson] at hrecord
    cases hrecord
  | some json =>
    rw [hjson] at hrecord
    cases hrecord
    exact unmarshal_jsonBytes (readRecordJson_recordJson hjson)

def storedPut (sequence : UInt64) : StoredRecord where
  recordType := .prepare
  chainVersion := 1
  sequence
  kind := some .put
  key := Lib.textBytes "k"
  value := Lib.textBytes "v"

theorem storedPut_text (sequence : UInt64) : (storedPut sequence).ValidText :=
  (by decide +kernel : (storedPut 0).ValidText)

theorem storedPut_encodes :
    (JournalExperiment.baselineJSONSync.encodeRecords journalJSON [storedPut 1]).toOption.isSome ∧
      (JournalExperiment.baselineJSONSync.encodeRecords journalJSON
        [storedPut 3]).toOption.isSome := by
  constructor <;> decide +kernel

/-- A batch is cut off in its second record, and another one in its length. -/
theorem cutTwice_survives : ∃ world : JournalWorld, journalJSON.RoundTrips ∧
    world.attempts = [⟨[storedPut 1], true⟩, ⟨[storedPut 2, storedPut 3], false⟩,
      ⟨[storedPut 3], true⟩, ⟨[storedPut 4], false⟩] ∧
    (world.replayed journalJSON).err = none ∧
    Accounts Eq world.attempts (world.replayed journalJSON).records := by
  have text : ∀ sequences : List UInt64, ∀ record ∈ sequences.map storedPut, record.ValidText := by
    intro sequences record hmem
    obtain ⟨sequence, -, rfl⟩ := List.mem_map.mp hmem
    exact storedPut_text sequence
  obtain ⟨once, hOnce, hRunning, hAttempts⟩ := json_journal_cycle journalJSON_roundTrips rfl
    (.refl : Reaches _ _ (JournalWorld.fresh .baselineJSONSync 0) _) rfl
    [storedPut 1] [storedPut 2, storedPut 3] (Lib.eq_ok_getD [] storedPut_encodes.1) (text [1, 2, 3])
    250
  obtain ⟨twice, hTwice, -, hBoth⟩ := json_journal_cycle journalJSON_roundTrips rfl hOnce hRunning
    [storedPut 3] [storedPut 4] (Lib.eq_ok_getD [] storedPut_encodes.2) (text [3, 4]) 2
  rw [hAttempts] at hBoth
  exact ⟨twice, journalJSON_roundTrips, hBoth,
    json_journal_survives_crashes journalJSON_roundTrips rfl hTwice⟩

/-! ## Binary records and crashes -/

theorem JournalWorld.replayed_of_clean {json : JSONCodec} {experiment : JournalExperiment}
    {allowed : JournalEvent → Prop} (faithful : experiment.Faithful json) {segmentCap : Nat}
    {world : JournalWorld}
    (h : Reaches (JournalWorld.step json) (fun world event => allowed event ∧
      world.Clean json event) (JournalWorld.fresh experiment segmentCap) world) :
    (world.replayed json).err = none ∧
      Accounts StoredRecord.ReadAs world.attempts (world.replayed json).records := by
  obtain ⟨same, rest, sound⟩ := JournalWorld.Sound.reaches faithful (fun _ _ => And.right) h
  obtain ⟨herr, accounts⟩ := sound.replayed (same ▸ faithful)
  exact ⟨herr, accounts.mono fun record read hread => hread ▸ JournalExperiment.readAs_imageOf ..⟩

/-- A binary journal does so as long as batches are written only behind whole records. -/
theorem binary_journal_survives_clean_crashes {json : JSONCodec} {experiment : JournalExperiment}
    (hbinary : experiment.isBinary = true) {segmentCap : Nat} {world : JournalWorld}
    (h : Reaches (JournalWorld.step json) (fun world event => event.Completes ∧
      world.Clean json event) (JournalWorld.fresh experiment segmentCap) world) :
    (world.replayed json).err = none ∧
      Accounts StoredRecord.ReadAs world.attempts (world.replayed json).records := by
  have faithful : experiment.Faithful json := by
    intro hjson
    rw [hbinary] at hjson
    cases hjson
  exact JournalWorld.replayed_of_clean faithful h

/-- The rest of a record that was cut off stays at the end of a segment, and the next batch goes to a
new one. -/
def cutAndRotate : List JournalEvent :=
  [.append [storedPut 1] .done, .crash [storedPut 2] 5, .reopen, .append [storedPut 3] .done]

theorem cutAndRotate_runs :
    (run (guarded (fun world event => decide (event.Completes ∧ world.Clean journalJSON event))
      (JournalWorld.step journalJSON)) cutAndRotate (.fresh .binarySegmentSync 142)).isSome =
        true := by
  decide +kernel

theorem cutAndRotate_survives : ∃ world : JournalWorld, world.journal.older.length = 1 ∧
    (world.replayed journalJSON).records = [storedPut 1, storedPut 3] ∧
    (world.replayed journalJSON).err = none ∧
    Accounts StoredRecord.ReadAs world.attempts (world.replayed journalJSON).records := by
  refine ⟨_, ?_, ?_, binary_journal_survives_clean_crashes rfl
    (.of_checked cutAndRotate_runs)⟩
  · decide +kernel
  · decide +kernel

/-- A run after which a replay does not deliver the records of all completed appends. -/
def Loses (json : JSONCodec) (experiment : JournalExperiment) (segmentCap : Nat)
    (allowed : JournalEvent → Prop) : Prop :=
  ∃ world, Reaches (JournalWorld.step json) (fun _ event => allowed event)
      (JournalWorld.fresh experiment segmentCap) world ∧
    (world.replayed json).err = none ∧
    ¬ Accounts StoredRecord.ReadAs world.attempts (world.replayed json).records

/-- Fewer records are delivered than the completed appends have had. -/
def JournalWorld.missesRecords (json : JSONCodec) (world : JournalWorld) : Bool :=
  (world.replayed json).err.isNone && decide ((world.replayed json).records.length <
    ((world.attempts.filter Attempt.completed).flatMap (·.records)).length)

theorem loses_of_run {json : JSONCodec} {experiment : JournalExperiment} {segmentCap : Nat}
    {allowed : JournalEvent → Prop} {events : List JournalEvent}
    (hallowed : ∀ event ∈ events, allowed event)
    (h : (run (JournalWorld.step json) events (JournalWorld.fresh experiment segmentCap)).any
      (·.missesRecords json) = true) : Loses json experiment segmentCap allowed := by
  rw [Option.any_eq_true] at h
  obtain ⟨world, hrun, hmisses⟩ := h
  rw [JournalWorld.missesRecords, Bool.and_eq_true, decide_eq_true_eq] at hmisses
  refine ⟨world, .of_run (fun event hmem _ => hallowed event hmem) hrun,
    Option.isNone_iff_eq_none.mp hmisses.1, ?_⟩
  intro accounts
  exact absurd accounts.length_le (Nat.not_le_of_lt hmisses.2)

/-- After a crash in the first byte of a record, the batch that follows is not read. -/
def cutFirstByte : List JournalEvent :=
  [.append [storedPut 1] .done, .crash [storedPut 2] 1, .reopen, .append [storedPut 3] .done]

theorem torn_binary_append_loses_later_batch :
    Loses journalJSON .binarySync (8 * 2 ^ 20) JournalEvent.Completes ∧
      Loses journalJSON .binarySegmentSync (8 * 2 ^ 20) JournalEvent.Completes := by
  have completes : ∀ event ∈ cutFirstByte, event.Completes := by decide +kernel
  constructor
  · exact loses_of_run completes (by decide +kernel)
  · exact loses_of_run completes (by decide +kernel)

/-! ## Errors while the process goes on -/

/-- No append that fails does harm as long as batches are written only behind whole records and
every segment closes and opens. -/
theorem journal_survives_clean_failures {json : JSONCodec} {experiment : JournalExperiment}
    (faithful : experiment.Faithful json) {segmentCap : Nat} {world : JournalWorld}
    (h : Reaches (JournalWorld.step json) (fun world event => event.Continues ∧
      world.Clean json event) (JournalWorld.fresh experiment segmentCap) world) :
    (world.replayed json).err = none ∧
      Accounts StoredRecord.ReadAs world.attempts (world.replayed json).records :=
  JournalWorld.replayed_of_clean faithful h

/-- A write stops behind its first record, another one in the middle of a record, and the batch after
that goes to a new segment. -/
def failCleanly : List JournalEvent :=
  [.append [storedPut 1] .done,
    .append [storedPut 2, storedPut 3] (.cut 70 (.fault "no space left on device")),
    .append [storedPut 3] (.unseen (.fault "stale file handle")),
    .append [storedPut 4] (.cut 5 (.fault "no space left on device")), .append [storedPut 5] .done]

theorem failCleanly_runs :
    (run (guarded (fun world event => decide (event.Continues ∧ world.Clean journalJSON event))
      (JournalWorld.step journalJSON)) failCleanly (.fresh .binarySegmentSync 210)).isSome =
        true := by
  decide +kernel

theorem failCleanly_survives : ∃ world : JournalWorld, world.journal.older.length = 1 ∧
    (world.replayed journalJSON).records = [storedPut 1, storedPut 2, storedPut 5] ∧
    (world.replayed journalJSON).err = none ∧
    Accounts StoredRecord.ReadAs world.attempts (world.replayed journalJSON).records := by
  refine ⟨_, ?_, ?_, journal_survives_clean_failures (fun _ => journalJSON_roundTrips)
    (.of_checked failCleanly_runs)⟩
  · decide +kernel
  · decide +kernel

def failFirstByte : List JournalEvent :=
  [.append [storedPut 1] (.cut 1 (.fault "no space left on device")), .append [storedPut 2] .done]

/-- What follows an append that failed is lost with every encoding, and when a segment does not open
nothing is replayed any more. -/
theorem failed_append_loses_later_batch :
    Loses journalJSON .baselineJSONSync (8 * 2 ^ 20) JournalEvent.Continues ∧
      Loses journalJSON .binarySync (8 * 2 ^ 20) JournalEvent.Continues ∧
      Loses journalJSON .binarySegmentSync (8 * 2 ^ 20) JournalEvent.Continues ∧
      ∃ world, Reaches (JournalWorld.step journalJSON) (fun _ event => event.Continues)
          (JournalWorld.fresh .binarySegmentSync 100) world ∧
        (world.replayed journalJSON).err ≠ none := by
  have continues : ∀ event ∈ failFirstByte, event.Continues := by decide +kernel
  refine ⟨loses_of_run continues (by decide +kernel), loses_of_run continues (by decide +kernel),
    loses_of_run continues (by decide +kernel), ?_⟩
  let events : List JournalEvent :=
    [.append [storedPut 1] .done, .append [storedPut 2] (.unopened (.fault "too many open files"))]
  have hrun : (run (JournalWorld.step journalJSON) events (.fresh .binarySegmentSync 100)).any
      (fun world => (world.replayed journalJSON).err.isSome) = true := by
    decide +kernel
  obtain ⟨world, hworld, herr⟩ := (Option.any_eq_true _ _).mp hrun
  refine ⟨world, .of_run (fun event hmem _ => ?_) hworld, Option.isSome_iff_ne_none.mp herr⟩
  revert event
  decide +kernel

end Craq.Storage
