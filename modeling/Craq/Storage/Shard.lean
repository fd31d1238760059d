import Craq.Lib.Map
import Craq.Lib.Queues
import Craq.Storage.Journal

/-! # A shard of the commit journal

The slots of a node share a few journals.  The loop of a shard gathers what its slots want written:
prepares in a queue for each slot, commit watermarks and upstream confirms joined where they are for
the same chain.  A flush selects a batch, appends its records at once and completes the intents.
-/

namespace Craq.Storage

-- The limits of a batch; both are normalised to be positive.
structure JournalConfig where
  batchMaxOps : Nat := 64
  batchMaxBytes : Nat := 1 <<< 20
  batchMaxOps_pos : 0 < batchMaxOps := by decide
  batchMaxBytes_pos : 0 < batchMaxBytes := by decide

/-! ## Prepares -/

-- An intent is known by the number of the call that waits for it.
structure JournalPrepareIntent where
  call : Nat
  prepare : DurableCommit
deriving DecidableEq

def JournalPrepareIntent.slot (intent : JournalPrepareIntent) : Nat :=
  intent.prepare.operation.slot

def estimatedCommitBytes (commit : DurableCommit) : Nat :=
  commit.operation.key.utf8ByteSize + commit.operation.value.utf8ByteSize + 128

def JournalPrepareIntent.bytes (intent : JournalPrepareIntent) : Nat :=
  estimatedCommitBytes intent.prepare

/-- The pending prepares: the queues, the order of the slots, and the totals kept beside them. -/
structure PrepareQueue where
  queues : Std.ExtTreeMap Nat (List JournalPrepareIntent) := ∅
  order : List Nat := []
  count : Nat := 0
  bytes : Nat := 0

def PrepareQueue.waiting (queue : PrepareQueue) (slot : Nat) : List JournalPrepareIntent :=
  queue.queues.getD slot []

def enqueuePendingPrepare (queue : PrepareQueue) (intent : JournalPrepareIntent) :
    PrepareQueue where
  queues := queue.queues.insert intent.slot (queue.waiting intent.slot ++ [intent])
  order := Lib.listJoined queue.order queue.waiting intent.slot
  count := queue.count + 1
  bytes := queue.bytes + intent.bytes

structure PrepareBatch where
  items : List JournalPrepareIntent := []
  bytes : Nat := 0

def PrepareBatch.count (batch : PrepareBatch) : Nat :=
  batch.items.length

def PrepareQueue.pop (queue : PrepareQueue) (slot : Nat) (intent : JournalPrepareIntent)
    (later : List JournalPrepareIntent) : PrepareQueue where
  queues := if later = [] then queue.queues.erase slot else queue.queues.insert slot later
  order := queue.order
  count := queue.count - 1
  bytes := queue.bytes - intent.bytes

def PrepareBatch.push (batch : PrepareBatch) (intent : JournalPrepareIntent) : PrepareBatch where
  items := batch.items ++ [intent]
  bytes := batch.bytes + intent.bytes

structure PrepareRound where
  queue : PrepareQueue
  batch : PrepareBatch
  stopped : Bool
  madeProgress : Bool

/-- One pass over the slots in order, one intent from each; `nextOrder` is the order so far for the
next pass.  A batch that is full ends the selection. -/
def popPrepareRound (config : JournalConfig) : List Nat → List Nat → PrepareQueue → PrepareBatch →
    Bool → PrepareRound
  | [], nextOrder, queue, batch, madeProgress =>
    { queue := { queue with order := nextOrder }, batch, stopped := false, madeProgress }
  | slot :: rest, nextOrder, queue, batch, madeProgress =>
    match queue.waiting slot with
    | [] =>
      popPrepareRound config rest nextOrder { queue with queues := queue.queues.erase slot } batch
        madeProgress
    | intent :: later =>
      if batch.count > 0 ∧ batch.bytes + intent.bytes > config.batchMaxBytes then
        { queue := { queue with order := nextOrder ++ slot :: rest }, batch, stopped := true,
          madeProgress }
      else
        let queue := queue.pop slot intent later
        let batch := batch.push intent
        let nextOrder := if later = [] then nextOrder else nextOrder ++ [slot]
        if batch.count ≥ config.batchMaxOps ∨ batch.bytes ≥ config.batchMaxBytes then
          { queue := { queue with order := nextOrder ++ rest }, batch, stopped := true,
            madeProgress := true }
        else popPrepareRound config rest nextOrder queue batch true

/-- Pass after pass, as long as the batch has room; a pass that does not stop the selection adds to
the batch, so no more than `batchMaxOps` passes are made. -/
def popPrepareRounds (config : JournalConfig) : Nat → PrepareQueue → PrepareBatch →
    PrepareQueue × PrepareBatch
  | 0, queue, batch => (queue, batch)
  | passes + 1, queue, batch =>
    if queue.order ≠ [] ∧ batch.count < config.batchMaxOps ∧ batch.bytes < config.batchMaxBytes then
      let round := popPrepareRound config queue.order [] queue batch false
      if round.stopped || !round.madeProgress then (round.queue, round.batch)
      else popPrepareRounds config passes round.queue round.batch
    else (queue, batch)

def popPrepareBatch (config : JournalConfig) (queue : PrepareQueue) :
    PrepareQueue × PrepareBatch :=
  if queue.count = 0 ∨ queue.order = [] then (queue, {})
  else popPrepareRounds config config.batchMaxOps queue {}

/-! ## Watermarks and confirms -/

inductive MarkType where
  | commitWatermark
  | headCommitRange
  | upstreamConfirm
deriving DecidableEq

structure MarkIntent where
  call : Nat
  recordType : MarkType
  assignment : ReplicaAssignment
  sequence : Nat
deriving DecidableEq

-- A confirm has no record type in its key, but all confirms have the same one.
structure MarkKey where
  recordType : MarkType
  slot : Nat
  chainVersion : Nat
deriving DecidableEq

structure PendingMark where
  recordType : MarkType
  assignment : ReplicaAssignment
  sequence : Nat
  intents : List MarkIntent
deriving DecidableEq

def MarkIntent.key (intent : MarkIntent) : MarkKey where
  recordType := intent.recordType
  slot := intent.assignment.slot
  chainVersion := intent.assignment.chainVersion

def PendingMark.key (entry : PendingMark) : MarkKey where
  recordType := entry.recordType
  slot := entry.assignment.slot
  chainVersion := entry.assignment.chainVersion

def MarkIntent.pending (intent : MarkIntent) : PendingMark where
  recordType := intent.recordType
  assignment := intent.assignment
  sequence := intent.sequence
  intents := [intent]

def PendingMark.join (entry : PendingMark) (intent : MarkIntent) : PendingMark :=
  let raised :=
    if intent.sequence > entry.sequence then
      { entry with sequence := intent.sequence, assignment := intent.assignment }
    else entry
  { raised with intents := entry.intents ++ [intent] }

/-- The entries stand in the order of the source's key list. -/
def enqueuePendingMark : List PendingMark → MarkIntent → List PendingMark
  | [], intent => [intent.pending]
  | entry :: entries, intent =>
    if entry.key = intent.key then entry.join intent :: entries
    else entry :: enqueuePendingMark entries intent

/-- The loop that selects marks, after `count` of them; what is selected and what is left. -/
def popMarks (remainingOps remainingBytes : Int) : Nat → List PendingMark →
    List PendingMark × List PendingMark
  | _, [] => ([], [])
  | count, entry :: entries =>
    if count > 0 ∧ ((count : Int) ≥ remainingOps ∨ (count + 1 : Int) * 64 > remainingBytes) then
      ([], entry :: entries)
    else if (count + 1 : Int) ≥ remainingOps ∨ (count + 1 : Int) * 64 ≥ remainingBytes then
      ([entry], entries)
    else
      let popped := popMarks remainingOps remainingBytes (count + 1) entries
      (entry :: popped.1, popped.2)

def popMarkBatch (remainingOps remainingBytes : Int) (allow : Bool) (entries : List PendingMark) :
    List PendingMark × List PendingMark :=
  if !allow ∨ remainingOps ≤ 0 ∨ remainingBytes ≤ 0 then ([], entries)
  else popMarks remainingOps remainingBytes 0 entries

def defaultJournalPriorityWatermarks : Nat := 8

/-- The loop that selects head commit ranges before everything else. -/
def popHeadRanges (limitOps remainingBytes : Nat) : Nat → List PendingMark →
    List PendingMark × List PendingMark
  | _, [] => ([], [])
  | count, entry :: entries =>
    if entry.recordType ≠ .headCommitRange ∨ count ≥ limitOps ∨
        (count + 1) * 64 > remainingBytes then
      let popped := popHeadRanges limitOps remainingBytes count entries
      (popped.1, entry :: popped.2)
    else
      let popped := popHeadRanges limitOps remainingBytes (count + 1) entries
      (entry :: popped.1, popped.2)

def popPriorityHeadRangeBatch (config : JournalConfig) (entries : List PendingMark) :
    List PendingMark × List PendingMark :=
  popHeadRanges (min config.batchMaxOps defaultJournalPriorityWatermarks) config.batchMaxBytes 0
    entries

/-! ## The shard -/

inductive Intent where
  | prepare (intent : JournalPrepareIntent)
  | mark (intent : MarkIntent)
deriving DecidableEq

inductive BatchItem where
  | prepare (intent : JournalPrepareIntent)
  | mark (entry : PendingMark)
deriving DecidableEq

def BatchItem.intents : BatchItem → List Intent
  | .prepare intent => [.prepare intent]
  | .mark entry => entry.intents.map .mark

structure ShardRecord where
  slot : Nat
  record : JournalRecord
deriving DecidableEq

def journalRecordFromCommitWatermark (assignment : ReplicaAssignment) (sequence : Nat) :
    JournalRecord where
  chainVersion := assignment.chainVersion
  entry := .commitWatermark sequence

def BatchItem.record : BatchItem → ShardRecord
  | .prepare intent => ⟨intent.slot, journalRecordFromPrepare intent.prepare⟩
  | .mark entry =>
    ⟨entry.assignment.slot,
      match entry.recordType with
      | .headCommitRange => journalRecordFromHeadCommitRange entry.assignment entry.sequence
      | .commitWatermark => journalRecordFromCommitWatermark entry.assignment entry.sequence
      | .upstreamConfirm => journalRecordFromUpstreamConfirm entry.assignment entry.sequence⟩

/-- What a call puts into one of the channels of a shard. -/
inductive Submission where
  | prepare (intent : JournalPrepareIntent)
  | watermark (intent : MarkIntent)
  | confirm (intent : MarkIntent)

/-- The queues of a shard, whether its timer is armed, and the high-water marks of its slots. -/
structure Shard where
  prepares : PrepareQueue := {}
  watermarks : List PendingMark := []
  confirms : List PendingMark := []
  timer : Bool := false
  prepareHigh : Std.ExtTreeMap Nat Nat := ∅
  highWater : Std.ExtTreeMap Nat Nat := ∅

/-- What a flush selected, what it handed to the journal and whom it completed how. -/
structure Flushed where
  items : List BatchItem := []
  records : List ShardRecord := []
  completions : List (Intent × Option Error) := []

/-- The outcome of looking at the contexts of the intents. -/
abbrev Cancellations := Intent → Option Error

def BatchItem.record? (canceled : Cancellations) (item : BatchItem) : Option ShardRecord :=
  if item.intents.all fun intent => (canceled intent).isSome then none else some item.record

def BatchItem.canceledCompletions (canceled : Cancellations) (item : BatchItem) :
    List (Intent × Option Error) :=
  (item.intents.filter fun intent => (canceled intent).isSome).map
    fun intent => (intent, canceled intent)

/-- The high-water marks after the mark of one slot has been raised, or after none has. -/
def raiseHigh (high : Std.ExtTreeMap Nat Nat) : Option (Nat × Nat) → Std.ExtTreeMap Nat Nat
  | none => high
  | some (slot, sequence) =>
    if sequence > high.getD slot 0 then high.insert slot sequence else high

/-- The slot and the sequence a successful append of the item marks as prepared. -/
def BatchItem.prepared? : BatchItem → Option (Nat × Nat)
  | .prepare intent => some (intent.slot, intent.prepare.operation.sequence)
  | .mark _ => none

/-- The slot and the sequence a successful append of the item marks as committed. -/
def BatchItem.committed? : BatchItem → Option (Nat × Nat)
  | .prepare _ => none
  | .mark entry =>
    match entry.recordType with
    | .upstreamConfirm => none
    | .commitWatermark | .headCommitRange => some (entry.assignment.slot, entry.sequence)

namespace Shard

variable (shard : Shard)

def enqueuePendingWatermark (intent : MarkIntent) : Shard :=
  { shard with watermarks := enqueuePendingMark shard.watermarks intent }

def enqueuePendingConfirm (intent : MarkIntent) : Shard :=
  { shard with confirms := enqueuePendingMark shard.confirms intent }

def enqueue : Submission → Shard
  | .prepare intent => { shard with prepares := enqueuePendingPrepare shard.prepares intent }
  | .watermark intent => shard.enqueuePendingWatermark intent
  | .confirm intent => shard.enqueuePendingConfirm intent

def priorityBatch (config : JournalConfig) : List PendingMark × List PendingMark :=
  popPriorityHeadRangeBatch config shard.watermarks

def prepareBatch (config : JournalConfig) : PrepareQueue × PrepareBatch :=
  popPrepareBatch config shard.prepares

/-- What the head commit ranges, the prepares and `marks` further marks leave of the limits; below
zero where the batch is over them. -/
def remainingOps (config : JournalConfig) (marks : Nat) : Int :=
  config.batchMaxOps - (shard.priorityBatch config).1.length - (shard.prepareBatch config).2.count -
    marks

def remainingBytes (config : JournalConfig) (marks : Nat) : Int :=
  config.batchMaxBytes - (shard.priorityBatch config).1.length * 64 -
    (shard.prepareBatch config).2.bytes - marks * 64

def popMarksAfter (config : JournalConfig) (marks : Nat) (entries : List PendingMark) :
    List PendingMark × List PendingMark :=
  popMarkBatch (shard.remainingOps config marks) (shard.remainingBytes config marks)
    ((shard.prepareBatch config).2.count = 0 ∨ shard.remainingOps config marks > 0) entries

def watermarkBatch (config : JournalConfig) : List PendingMark × List PendingMark :=
  shard.popMarksAfter config 0 (shard.priorityBatch config).2

def confirmBatch (config : JournalConfig) : List PendingMark × List PendingMark :=
  shard.popMarksAfter config (shard.watermarkBatch config).1.length shard.confirms

def batch (config : JournalConfig) : List BatchItem :=
  (shard.priorityBatch config).1.map .mark ++ (shard.prepareBatch config).2.items.map .prepare ++
    (shard.watermarkBatch config).1.map .mark ++ (shard.confirmBatch config).1.map .mark

def unbatched (config : JournalConfig) : Shard :=
  { shard with
    prepares := (shard.prepareBatch config).1
    watermarks := (shard.watermarkBatch config).2
    confirms := (shard.confirmBatch config).2
    timer := false }

/-- `markPrepared` and `markCommitted` for the items of an appended batch. -/
def settle (items : List BatchItem) : Shard :=
  { shard with
    prepareHigh := items.foldl (fun high item => raiseHigh high item.prepared?) shard.prepareHigh
    highWater := items.foldl (fun high item => raiseHigh high item.committed?) shard.highWater }

-- With nothing pending nothing is selected, so the early return for it needs no case of its own.
def flush (config : JournalConfig) (canceled : Cancellations) (appendErr : Option Error) :
    Shard × Flushed :=
  let items := shard.batch config
  let records := items.filterMap (BatchItem.record? canceled)
  let dropped := items.flatMap (BatchItem.canceledCompletions canceled)
  if records = [] then (shard.unbatched config, { items, completions := dropped })
  else
    let flushed : Flushed :=
      { items, records
        completions := dropped ++ items.flatMap fun item => item.intents.map (·, appendErr) }
    match appendErr with
    | some _ => (shard.unbatched config, flushed)
    | none => ((shard.unbatched config).settle items, flushed)

end Shard

end Craq.Storage
